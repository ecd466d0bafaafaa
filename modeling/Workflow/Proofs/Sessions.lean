import Mathlib.Data.Set.Function
import Workflow.Compile.Session
import Workflow.Proofs.Compilation

/-!
Sessions. A session answers a request by a unit that it has, if that is still fresh, and else by a compilation.
As long as no two texts at hand have one digest, a fresh unit is what compilation in the files of now comes to,
and a session that keeps units cannot be told from one that keeps none.
-/

namespace Workflow

open List Digest Session Program Cached

variable {P : String → Cached → Prop} {c : Compiled} {config : CompilerConfig}

/-! ### Compilation in other files -/

section

variable {files others : Files} {source name : String}

/-- What compiles has parsed and loaded without errors. The unit has the name that was asked for and the record
of the files. -/
lemma loaded_of_compile (h : compile config files source name = .ok c) : ∃ root loaded,
    ofSource source name = .ok root ∧ root.load files = .ok loaded ∧
      (∀ d ∈ loaded.diagnostics, d.isError = false) ∧ c.name = name ∧ c.imports = loaded.fingerprints := by
  obtain ⟨root, loaded, hroot, hloaded⟩ := exists_of_compile h
  have hclean := noErrors_of_compile hroot hloaded h
  obtain ⟨-, u, -, hu⟩ := compile_of_clean hroot hloaded hclean config
  cases hu.symm.trans h
  refine ⟨root, loaded, hroot, hloaded, fun d hd => ?_, rfl, rfl⟩
  exact Bool.eq_false_iff.2 (any_eq_false.1 hclean d (mem_append_left _ hd))

/-- Nothing is loaded for a source without imports. -/
lemma load_of_alone (h : compile config files source name = .ok c) (halone : c.importPaths = [])
    (hroot : ofSource source name = .ok root) (hloaded : root.load files = .ok loaded) :
    loaded = { seen := [root.name] } := by
  obtain ⟨-, u, -, hu⟩ := compile_of_clean hroot hloaded (noErrors_of_compile hroot hloaded h) config
  cases hu.symm.trans h
  rw [load, Loaded.visit, map_eq_nil_iff.1 halone] at hloaded
  cases hloaded
  rfl

lemma compile_transfer (h : compile config files source name = .ok c)
    (hsame : ∀ e ∈ c.imports, others.get? e.1 = files.get? e.1) :
    compile config others source name = .ok c := by
  obtain ⟨root, loaded, hroot, hloaded, hclean, -, himports⟩ := loaded_of_compile h
  have hothers := load_transfer hloaded ⟨hclean, himports ▸ hsame⟩
  rw [← h, compile_eq hroot hothers, compile_eq hroot hloaded]

lemma recorded_of_compile (h : compile config files source name = .ok c) :
    ∀ e ∈ c.imports, ∃ text, files.get? e.1 = some text ∧ e.2 = ofText text := by
  obtain ⟨root, loaded, -, hloaded, -, -, himports⟩ := loaded_of_compile h
  exact himports ▸ load_recorded hloaded

end

namespace Session

variable {s : Session} {files : Files} {source name : String} {cached : Cached}

/-! ### One request -/

def unit? (s : Session) (source : String) : Option Cached :=
  (s.entries.find? (·.1 = ofText source)).bind (·.2)

def All (P : String → Cached → Prop) (s : Session) : Prop :=
  ∀ key cached, (key, some cached) ∈ s.entries → P key cached

lemma All.unit? (h : s.All P) (hunit : s.unit? source = some cached) : P (ofText source) cached := by
  obtain ⟨⟨key, entry⟩, hfind, hentry⟩ := Option.bind_eq_some_iff.1 hunit
  have hkey : key = ofText source := by simpa using List.find?_some hfind
  cases hentry
  exact hkey ▸ h key cached (List.mem_of_find?_eq_some hfind)

lemma All.put (h : s.All P) (key : String) : (s.put key none).All P := by
  intro other cached hmem
  rcases mem_cons.1 (mem_of_mem_take hmem) with heq | hmem
  · cases heq
  · exact h other cached (mem_of_mem_filter hmem)

lemma All.fill (h : s.All P)
    (hnew : ∀ cached : Cached, Workflow.compile s.config files source name = .ok cached.compiled → P key cached) :
    (s.fill files key source name).1.All P := by
  unfold Session.fill
  dsimp only
  split
  · exact h
  · next c hc =>
    intro other cached hmem
    obtain ⟨e, he, heq⟩ := mem_map.1 hmem
    split at heq
    · cases heq
      exact hnew _ hc
    · subst heq
      exact h other cached he

lemma fill_snd (s : Session) (files : Files) (key source name : String) :
    (s.fill files key source name).2.map compiled = Workflow.compile s.config files source name := by
  unfold fill
  dsimp only
  split
  · next e he => rw [he]; rfl
  · next c hc => rw [hc]; rfl

lemma fill_config (s : Session) (files : Files) (key source name : String) :
    (s.fill files key source name).1.config = s.config := by
  unfold fill
  dsimp only
  split <;> rfl

/-- A request is answered by the unit that the session has of the text, if that is fresh, and else by a
compilation. -/
lemma compile_cases (s : Session) (files : Files) (source name : String) :
    (∃ cached, s.unit? source = some cached ∧ isFresh files name cached.compiled = true ∧
      s.compile files source name = ({ s with hits := s.hits + 1 }, .ok cached)) ∨
    (∀ cached, s.unit? source = some cached → isFresh files name cached.compiled = false) ∧
      ∃ t, ((ofText source, none) ∈ s.entries ∧ t = s ∨ t = s.put (ofText source) none) ∧
        s.compile files source name = t.fill files (ofText source) source name := by
  unfold compile unit?
  dsimp only
  cases hfind : s.entries.find? (·.1 = ofText source) with
  | none => exact .inr ⟨nofun, _, .inr rfl, rfl⟩
  | some e =>
    obtain ⟨key, _ | cached⟩ := e
    · have hkey : key = ofText source := by simpa using List.find?_some hfind
      exact .inr ⟨nofun, _, .inl ⟨hkey ▸ List.mem_of_find?_eq_some hfind, rfl⟩, rfl⟩
    · dsimp only
      split
      · next hfresh => exact .inl ⟨cached, rfl, hfresh, rfl⟩
      · next hstale =>
        refine .inr ⟨fun other h => ?_, _, .inr rfl, rfl⟩
        cases h
        exact Bool.eq_false_iff.2 hstale

lemma All.compile (h : s.All P)
    (hnew : ∀ cached : Cached, Workflow.compile s.config files source name = .ok cached.compiled → P (ofText source) cached) :
    (s.compile files source name).1.All P := by
  rcases s.compile_cases files source name with ⟨_, _, _, heq⟩ | ⟨_, t, ⟨_, rfl⟩ | rfl, heq⟩ <;> rw [heq]
  · exact h
  · exact h.fill hnew
  · exact (h.put _).fill hnew

lemma compile_config (s : Session) (files : Files) (source name : String) :
    (s.compile files source name).1.config = s.config := by
  rcases s.compile_cases files source name with ⟨_, _, _, heq⟩ | ⟨_, t, ⟨_, rfl⟩ | rfl, heq⟩ <;> rw [heq]
  · exact fill_config ..
  · exact fill_config ..

lemma compile_of_stale
    (hstale : ∀ cached, s.unit? source = some cached → isFresh files name cached.compiled = false) :
    (s.compile files source name).2.map compiled = Workflow.compile s.config files source name := by
  rcases s.compile_cases files source name with ⟨cached, hunit, hfresh, _⟩ | ⟨_, t, ⟨_, rfl⟩ | rfl, heq⟩
  · rw [hstale cached hunit] at hfresh
    cases hfresh
  · rw [heq, fill_snd]
  · rw [heq, fill_snd]
    rfl

lemma compile_of_fresh (hunit : s.unit? source = some cached) (hfresh : isFresh files name cached.compiled = true) :
    s.compile files source name = ({ s with hits := s.hits + 1 }, .ok cached) := by
  rcases s.compile_cases files source name with ⟨other, hother, _, heq⟩ | ⟨hstale, _⟩
  · cases hunit.symm.trans hother
    exact heq
  · rw [hstale cached hunit] at hfresh
    cases hfresh

lemma compile_of_empty (h : s.entries = []) (files : Files) (source name : String) :
    (s.compile files source name).2.map compiled = Workflow.compile s.config files source name :=
  compile_of_stale fun cached hunit => by simp [unit?, h] at hunit

lemma isFresh_self : isFresh files c.name c = true ↔
    ∀ e ∈ c.imports, ∃ text, files.get? e.1 = some text ∧ ofText text = e.2 := by
  simp only [isFresh, decide_true, Bool.true_or, Bool.true_and, all_eq_true]
  refine forall₂_congr fun e _ => ?_
  cases files.get? e.1 <;> simp

lemma isFresh_of_compile (h : Workflow.compile config files source name = .ok c) : isFresh files name c = true := by
  obtain ⟨-, -, -, -, -, rfl, -⟩ := loaded_of_compile h
  refine isFresh_self.2 fun e he => ?_
  obtain ⟨text, htext, hdigest⟩ := recorded_of_compile h e he
  exact ⟨text, htext, hdigest.symm⟩

lemma compile_new (h : Workflow.compile config files source name = .ok c) :
    (compile { config := config } files source name).2 = .ok ⟨0, c⟩ := by
  simp [compile, put, fill, h]

lemma entries_new (h : Workflow.compile config files source name = .ok c) :
    (compile { config := config } files source name).1.entries = [(ofText source, some ⟨0, c⟩)] := by
  have hcapacity : 0 < max config.cacheCapacity 1 := by omega
  obtain ⟨n, hn⟩ := Nat.exists_eq_succ_of_ne_zero hcapacity.ne'
  simp [compile, put, fill, fillEntry, capacity, hn, h]

lemma unit?_new (h : Workflow.compile config files source name = .ok c) :
    (compile { config := config } files source name).1.unit? source = some ⟨0, c⟩ := by
  simp [unit?, entries_new h]

end Session

/-! ### Work with a session -/

/-- A session and the files that it compiles from. -/
structure Desk where
  session : Session
  files : Files

namespace Desk

/-- What is done with a session and its files. -/
inductive Action where
  | put (file text : String)
  | compile (source name : String)
  | validate (source name : String)
  | clear
  deriving DecidableEq, Repr

def Action.texts : Action → List String
  | put _ text => [text]
  | compile source _ => [source]
  | validate _ _ => []
  | clear => []

def start (config : CompilerConfig) (registry : Registry) (files : Files) : Desk :=
  ⟨{ config := config, registry := registry }, files⟩

def act (d : Desk) : Action → Desk
  | .put file text => { d with files := d.files.insert file text }
  | .compile source name => { d with session := (d.session.compile d.files source name).1 }
  | .validate _ _ => d
  | .clear => { d with session := d.session.clear }

lemma session_compile (d : Desk) (source name : String) :
    (d.act (.compile source name)).session = (d.session.compile d.files source name).1 := rfl

def after (d : Desk) (actions : List Action) : Desk := actions.foldl act d

def texts (files : Files) (actions : List Action) : Set String :=
  { text | (∃ file, files.get? file = some text) ∨ ∃ a ∈ actions, text ∈ a.texts }

/-- A unit comes from the compilation of a text with the digest under which it is kept. -/
def Filled (config : CompilerConfig) (texts : Set String) (key : String) (cached : Cached) : Prop :=
  ∃ files source, source ∈ texts ∧ ofText source = key ∧ (∀ file text, files.get? file = some text → text ∈ texts) ∧
    compile config files source cached.compiled.name = .ok cached.compiled

/-- All that is on a desk is made of known texts. -/
structure Sound (config : CompilerConfig) (texts : Set String) (d : Desk) : Prop where
  settings : d.session.config = config
  files : ∀ file text, d.files.get? file = some text → text ∈ texts
  units : d.session.All (Filled config texts)

variable {texts : Set String} {d : Desk}

lemma Sound.act (h : d.Sound config texts) (a : Action) (hknown : ∀ text ∈ a.texts, text ∈ texts) :
    (d.act a).Sound config texts := by
  cases a with
  | put file text =>
    refine ⟨h.settings, fun other text' hget => ?_, h.units⟩
    rw [Desk.act, Table.get?_insert] at hget
    split at hget
    · cases hget
      exact hknown text mem_cons_self
    · exact h.files other text' hget
  | compile source name =>
    refine ⟨(compile_config ..).trans h.settings, h.files, h.units.compile fun cached hcached => ?_⟩
    obtain ⟨-, -, -, -, -, hname, -⟩ := loaded_of_compile hcached
    rw [h.settings, ← hname] at hcached
    exact ⟨d.files, source, hknown source mem_cons_self, rfl, h.files, hcached⟩
  | validate source name => exact h
  | clear => exact ⟨h.settings, h.files, nofun⟩

lemma Sound.after : ∀ (actions : List Action) {d : Desk}, d.Sound config texts →
    (∀ a ∈ actions, ∀ text ∈ a.texts, text ∈ texts) → (d.after actions).Sound config texts
  | [], _, h, _ => h
  | a :: actions, _, h, hknown => by
    refine Sound.after actions (h.act a (hknown a mem_cons_self)) fun b hb => ?_
    exact hknown b (.tail _ hb)

lemma sound_of_texts (config : CompilerConfig) (registry : Registry) (files : Files) (hactions : actions ⊆ actions') :
    ((start config registry files).after actions).Sound config (Desk.texts files actions') := by
  refine Sound.after actions ⟨rfl, fun file text hget => .inl ⟨file, hget⟩, nofun⟩ ?_
  exact fun a ha text htext => .inr ⟨a, hactions ha, htext⟩

lemma Filled.compile {source : String} {files : Files} {cached : Cached}
    (h : Filled config texts (ofText source) cached) (hdigest : Set.InjOn ofText texts)
    (hsource : source ∈ texts) (hfiles : ∀ file text, files.get? file = some text → text ∈ texts)
    (hfresh : isFresh files cached.compiled.name cached.compiled = true) :
    Workflow.compile config files source cached.compiled.name = .ok cached.compiled := by
  obtain ⟨before, source', hsource', hkey, hbefore, hcompiled⟩ := h
  cases hdigest hsource' hsource hkey
  refine compile_transfer hcompiled fun e he => ?_
  obtain ⟨old, hold, hrecorded⟩ := recorded_of_compile hcompiled e he
  obtain ⟨now, hnow, hsame⟩ := isFresh_self.1 hfresh e he
  rw [hold, hnow, hdigest (hfiles _ _ hnow) (hbefore _ _ hold) (hsame.trans hrecorded)]

end Desk

/-- A session gives what a new session would give in the files of now: the same unit or the same errors, if the
unit that it may have of the text was compiled under the same name, and as long as the texts of the files and of
all requests have different digests. -/
theorem compile_eq_cold {config : CompilerConfig} {registry : Registry} {files : Files}
    {actions : List Desk.Action} {desk : Desk} (hdesk : (Desk.start config registry files).after actions = desk)
    {source name : String}
    (hdigest : Set.InjOn Digest.ofText (Desk.texts files (actions ++ [.compile source name])))
    (hname : ∀ cached, desk.session.unit? source = some cached → cached.compiled.name = name) :
    (desk.session.compile desk.files source name).2.map compiled =
      (Session.compile { config := config } desk.files source name).2.map compiled := by
  have hsound : desk.Sound config (Desk.texts files (actions ++ [.compile source name])) :=
    hdesk ▸ Desk.sound_of_texts config registry files (subset_append_left _ _)
  have hsource : source ∈ Desk.texts files (actions ++ [.compile source name]) :=
    Or.inr ⟨_, mem_append_right _ mem_cons_self, mem_cons_self⟩
  rw [@compile_of_empty { config := config } rfl]
  rcases desk.session.compile_cases desk.files source name with ⟨cached, hunit, hfresh, heq⟩ | ⟨hstale, -⟩
  · obtain rfl := hname cached hunit
    rw [heq, (hsound.units.unit? hunit).compile hdigest hsource hsound.files hfresh]
    rfl
  · rw [compile_of_stale hstale, hsound.settings]

def librarySource : String := "flow f:\n  return 1\n"

def importSource : String := "import \"lib\"\n"

lemma exists_import : ∃ c, compile {} [("lib", librarySource)] importSource "main" = .ok c ∧
    c.imports.map (·.1) = ["lib"] := by
  obtain ⟨_, _, c, -, -, hc, himports⟩ := exists_of_compilesTo (show compilesTo
    [("lib", librarySource)] importSource "main" (fun _ _ c => decide (c.imports.map (·.1) = ["lib"])) = true by
      decide +kernel)
  exact ⟨c, hc, of_decide_eq_true himports⟩

lemma injOn_of_nodup {β : Type} {f : String → β} {known : List String} (hnodup : (known.map f).Nodup)
    {texts : Set String} (hmem : ∀ text ∈ texts, text ∈ known) : Set.InjOn f texts :=
  fun _ ha _ hb heq => inj_on_of_nodup_map hnodup (hmem _ ha) (hmem _ hb) heq

lemma nodup_samples : ([librarySource, importSource].map ofText).Nodup := by decide +kernel

lemma injOn_import (name : String) : Set.InjOn ofText (Desk.texts []
    ([.put "lib" librarySource, .compile importSource "main"] ++ [.compile importSource name])) :=
  injOn_of_nodup nodup_samples (by simp [Desk.texts, Desk.Action.texts])

/-- A session that has compiled the importing source as `main`. -/
def importDesk : Desk :=
  (Desk.start {} [] []).after [.put "lib" librarySource, .compile importSource "main"]

lemma exists_importDesk : ∃ c, importDesk.session.unit? importSource = some ⟨0, c⟩ ∧
    compile {} importDesk.files importSource "main" = .ok c ∧ c.name = "main" ∧
    c.imports.map (·.1) = ["lib"] := by
  obtain ⟨c, hcompile, himports⟩ := exists_import
  obtain ⟨-, -, -, -, -, hname, -⟩ := loaded_of_compile hcompile
  refine ⟨c, ?_, hcompile, hname, himports⟩
  rw [importDesk, Desk.after, foldl_cons, foldl_cons, foldl_nil, Desk.session_compile]
  exact unit?_new hcompile

/-- The importing source is compiled once and then found again. -/
theorem compile_eq_cold_import : ∃ desk cached,
    (Desk.start {} [] []).after [.put "lib" librarySource, .compile importSource "main"] = desk ∧
    Set.InjOn Digest.ofText (Desk.texts [] [.put "lib" librarySource, .compile importSource "main",
      .compile importSource "main"]) ∧
    desk.session.unit? importSource = some cached ∧ cached.compiled.name = "main" ∧
    cached.compiled.imports.map (·.1) = ["lib"] ∧
    (desk.session.compile desk.files importSource "main").2 = .ok cached ∧
    (Session.compile {} desk.files importSource "main").2.map compiled = .ok cached.compiled := by
  obtain ⟨c, hunit, hcompile, hname, himports⟩ := exists_importDesk
  have hkept := Session.compile_of_fresh hunit (Session.isFresh_of_compile hcompile)
  have hcold := compile_eq_cold (rfl : _ = importDesk) (injOn_import "main") fun cached h => by
    cases hunit.symm.trans h
    exact hname
  refine ⟨importDesk, ⟨0, c⟩, rfl, injOn_import "main", hunit, hname, himports, congrArg Prod.snd hkept, ?_⟩
  rw [← hcold, hkept]
  rfl

end Workflow
