import Workflow.Proofs.Identifiers
import Workflow.Proofs.Tracing

/-!
Listings line by line. The text of a listing has one line for each line of it, unless a line feed gets in: by
the key of a map, which may be any text, or by the name of a file in a comment.
-/

namespace Workflow

open List Program Line

variable {l : Line} {lines : Listing}

/-! ### Lines of a text -/

namespace Line

def shown (l : Line) : String :=
  String.ofList (List.replicate (l.depth * indentation) ' ') ++ match l.content with
    | .op o => o.display
    | .comment text => "# " ++ text

/-- The texts of a line that are shown as they are and need not be words: the keys of maps, and a comment. -/
def unquoted (l : Line) : List String :=
  match l.content with
  | .op o => o.keys
  | .comment text => [text]

lemma render_true (l : Line) : l.render true = l.shown ++ "\n" := by
  rcases l with ⟨depth, _ | _⟩
  · rfl
  · exact congrArg (· ++ "\n") (String.append_assoc ..)

lemma feed_mem_shown (hop : ∀ o, l.content = .op o → o.Worded) :
    '\n' ∈ l.shown.toList ↔ ∃ s ∈ l.unquoted, '\n' ∈ s.toList := by
  have hlead : '\n' ∉ (String.ofList (List.replicate (l.depth * indentation) ' ')).toList := by simp
  rw [shown, String.toList_append, mem_append, or_iff_right hlead]
  rcases l with ⟨depth, o | text⟩
  · have hnames : ¬ ∃ s ∈ o.names, '\n' ∈ s.toList := fun ⟨s, hs, hfeed⟩ =>
      (hop o rfl s hs).feed_not_mem hfeed
    exact (Op.feed_mem_display o).trans (or_iff_right hnames)
  · simp [unquoted]

end Line

namespace Listing

/-- The text of a listing has its lines, in order, and nothing behind the last line feed. -/
def LineByLine (lines : Listing) : Prop :=
  Text.splitFeeds (lines.render true).toList = lines.map (·.shown.toList) ++ [[]]

lemma lineByLine_iff : lines.LineByLine ↔ ∀ l ∈ lines, '\n' ∉ l.shown.toList := by
  have htext : (lines.render true).toList = (lines.map (·.shown.toList)).flatMap (· ++ ['\n']) := by
    rw [render, String.toList_join, flatMap_map, flatMap_map]
    congr 1
    funext l
    rw [render_true, String.toList_append]
    rfl
  rw [LineByLine, htext, Text.splitFeeds_flatMap_iff, forall_mem_map]

lemma getElem?_of_mem_flat (h : f ∈ lines.flat) : lines[f.line - 1]? = some ⟨f.depth, .op f.op⟩ := by
  obtain ⟨⟨l, n⟩, hl, hf⟩ := mem_filterMap.1 h
  rw [mem_zipIdx_iff_getElem?] at hl
  dsimp only at hf
  split at hf
  · next o hcontent =>
    cases hf
    rw [Nat.add_sub_cancel, hl, ← hcontent]
  · cases hf

lemma exists_mem_flat (hl : l ∈ lines) (ho : l.content = .op o) : ∃ f ∈ lines.flat, f.op = o := by
  obtain ⟨n, hn⟩ := mem_iff_getElem?.1 hl
  refine ⟨⟨n + 1, l.depth, o⟩, mem_filterMap.2 ⟨(l, n), mem_zipIdx_iff_getElem?.2 hn, ?_⟩, rfl⟩
  dsimp only
  rw [ho]

lemma LineByLine.getElem? (h : lines.LineByLine) (hf : f ∈ lines.flat) :
    (Text.splitFeeds (lines.render true).toList)[f.line - 1]? = some (shown ⟨f.depth, .op f.op⟩).toList := by
  have hline := getElem?_of_mem_flat hf
  have hbound : f.line - 1 < (lines.map (·.shown.toList)).length := by
    rw [length_map]
    exact (List.getElem?_eq_some_iff.1 hline).1
  rw [h, List.getElem?_append_left hbound, List.getElem?_map, hline]
  rfl

end Listing

/-! ### Lines of units -/

section

variable {config : CompilerConfig} {files : Files} {source name : String} {root : Program} {loaded : Loaded}
  {compiled : Compiled}

lemma worded_of_load (hroot : ofSource source name = .ok root) (hloaded : root.load files = .ok loaded) :
    ∀ p ∈ root :: loaded.imports, ∀ d ∈ p.decls, d.Worded := by
  refine forall_mem_cons.2 ⟨worded_of_ofSource hroot, fun p hp => ?_⟩
  obtain ⟨_, _, hread⟩ := load_read hloaded p hp
  exact worded_of_ofSource hread

lemma content_of_compile (hroot : ofSource source name = .ok root)
    (hloaded : root.load files = .ok loaded) (hcompiled : compile config files source name = .ok compiled)
    (hl : l ∈ compiled.unit.listing) :
    (∃ p ∈ root :: loaded.imports, ∃ n : Nat, l.content = .comment (p.name ++ ":" ++ toString n)) ∨
      ∃ o : Op, l.content = .op o ∧ o.Worded := by
  rw [(placed_of_compile hroot hloaded hcompiled).1] at hl
  obtain ⟨placed, hplaced, rfl⟩ := mem_map.1 hl
  obtain ⟨p, hp, d, hd, name, hname, hplaced⟩ := Lower.mem_lines hplaced
  rcases Lower.mem_placed hplaced with rfl | ⟨step, hstep, rfl⟩
  · exact .inl ⟨p, hp, _, rfl⟩
  · exact .inr ⟨step.op, rfl, worded_of_load hroot hloaded p hp d hd name hname step hstep⟩

/-- The text of a unit's listing has its lines just if no key of a map and no comment has a line feed, and
comments have none if the names of the files have none. An operation then stands on the line with its number. -/
theorem listing_line_by_line (hroot : ofSource source name = .ok root)
    (hloaded : root.load files = .ok loaded) (hcompiled : compile config files source name = .ok compiled) :
    (compiled.unit.listing.LineByLine ↔ ∀ l ∈ compiled.unit.listing, ∀ s ∈ l.unquoted, '\n' ∉ s.toList) ∧
    ((∀ p ∈ root :: loaded.imports, '\n' ∉ p.name.toList) → (compiled.unit.listing.LineByLine ↔
      ∀ f ∈ compiled.unit.listing.flat, ∀ key ∈ f.op.keys, '\n' ∉ key.toList)) ∧
    (compiled.unit.listing.LineByLine → ∀ f ∈ compiled.unit.listing.flat,
      (Text.splitFeeds (compiled.unit.listing.render true).toList)[f.line - 1]? =
        some (shown ⟨f.depth, .op f.op⟩).toList) := by
  have hbroken : compiled.unit.listing.LineByLine ↔ ∀ l ∈ compiled.unit.listing, ∀ s ∈ l.unquoted, '\n' ∉ s.toList := by
    rw [Listing.lineByLine_iff]
    refine forall₂_congr fun l hl => ?_
    have hop : ∀ o, l.content = .op o → o.Worded := by
      intro o ho
      rcases content_of_compile hroot hloaded hcompiled hl with ⟨_, _, _, hcomment⟩ | ⟨o', ho', hworded⟩
      · cases ho.symm.trans hcomment
      · cases ho.symm.trans ho'
        exact hworded
    rw [feed_mem_shown hop]
    simp only [not_exists, not_and]
  refine ⟨hbroken, fun hnames => hbroken.trans ⟨fun h f hf => ?_, fun h l hl => ?_⟩, fun h f hf => h.getElem? hf⟩
  · exact h _ (mem_of_getElem? (Listing.getElem?_of_mem_flat hf))
  · rcases content_of_compile hroot hloaded hcompiled hl with ⟨p, hp, n, hcomment⟩ | ⟨o, ho, -⟩
    · rw [unquoted, hcomment, forall_mem_singleton]
      simp only [String.toList_append, mem_append, not_or]
      exact ⟨⟨hnames p hp, by decide⟩, Text.feed_not_mem_nat n⟩
    · obtain ⟨f, hf, rfl⟩ := Listing.exists_mem_flat hl ho
      rw [unquoted, ho]
      exact h f hf

end

/-- A flow with keys of both kinds, and with a text that has a line feed. -/
def keysSource : String := "flow f $x:\n  log \x7b\"a b\": [$x.y, \"one\\ntwo\"]\x7d\n  return \x7bk: 1\x7d\n"

theorem listing_line_by_line_keys : ∃ root loaded compiled, ofSource keysSource "main" = .ok root ∧
    root.load [] = .ok loaded ∧ compile {} [] keysSource "main" = .ok compiled ∧
    compiled.unit.listing.flatMap unquoted = ["main:1", "a b", "k"] ∧
    compiled.unit.listing.LineByLine := by
  obtain ⟨root, loaded, compiled, hroot, hloaded, hcompiled, h⟩ := exists_of_compilesTo
    (show compilesTo [] keysSource "main" (fun _ _ c => decide
      (c.unit.listing.flatMap unquoted = ["main:1", "a b", "k"])) = true by decide +kernel)
  have hunquoted := of_decide_eq_true h
  refine ⟨root, loaded, compiled, hroot, hloaded, hcompiled, hunquoted, ?_⟩
  refine (listing_line_by_line hroot hloaded hcompiled).1.2 fun l hl s hs => ?_
  have hmem := mem_flatMap.2 ⟨l, hl, hs⟩
  rw [hunquoted] at hmem
  have hall : ∀ s ∈ ["main:1", "a b", "k"], '\n' ∉ s.toList := by decide
  exact hall s hmem

/-- A flow that returns a map with a line feed in its key. -/
def brokenSource : String := "flow f:\n  return \x7b\"a\\nb\": 1\x7d\n"

/-- A line feed in a key breaks the line of its operation. -/
theorem key_breaks_line : ∃ compiled, compile {} [] brokenSource "main" = .ok compiled ∧
    compiled.unit.listing.length = 3 ∧
    compiled.unit.listing.render true = "# main:1\nflow f():\n  return \x7ba\nb: 1\x7d\n" ∧
    ¬ compiled.unit.listing.LineByLine := by
  obtain ⟨_, _, compiled, -, -, hcompiled, h⟩ := exists_of_compilesTo
    (show compilesTo [] brokenSource "main" (fun _ _ c => decide (c.unit.listing.length = 3 ∧
      c.unit.listing.render true = "# main:1\nflow f():\n  return \x7ba\nb: 1\x7d\n")) = true by decide +kernel)
  obtain ⟨hlength, htext⟩ := of_decide_eq_true h
  refine ⟨compiled, hcompiled, hlength, htext, fun hlines => ?_⟩
  have hpieces := congrArg List.length hlines
  rw [htext, length_append, length_map, hlength] at hpieces
  exact absurd hpieces (by decide)

end Workflow
