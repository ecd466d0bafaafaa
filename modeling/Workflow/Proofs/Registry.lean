import Workflow.Proofs.Renaming
import Workflow.Run.Context

/-!
The registry of source maps. A unit is known there by its name and the start of the digest of its source. As
long as the texts at hand differ in the start of their digests, two units share a place only if they come from
one source under one name. They have the same map then, unless the files that they import have changed.
-/

namespace Workflow

open List Digest Session Desk Registry

/-! ### Identities of units -/

def Digest.short (text : String) : List Char := (ofText text).toList.take 8

lemma Digest.length_short (text : String) : (short text).length = 8 := by
  have hhex : ∀ x, (hex x).toList.length = 8 := fun x => by simp [hex]
  unfold short ofText ofBytes
  generalize blocks _ _ _ = s
  simp [String.join, hhex]

/-- The identity of a unit tells its name and the start of the digest, which has always the same length. -/
lemma generatedFileId_inj (h : generatedFileId name (ofText source) = generatedFileId name' (ofText source')) :
    name = name' ∧ short source = short source' := by
  have hshort : ∀ text, (ofText text).toList.take 8 = short text := fun _ => rfl
  have hlist := congrArg String.toList h
  simp only [generatedFileId, String.toList_append, String.toList_ofList, append_assoc, hshort] at hlist
  obtain ⟨hname, htail⟩ := append_inj' (append_cancel_left hlist) (by simp only [length_append, length_short])
  exact ⟨String.toList_inj.1 hname, append_cancel_right (append_cancel_left htail)⟩

lemma fileId_of_compile {config : CompilerConfig} {files : Files} {source name : String} {c : Compiled}
    (h : compile config files source name = .ok c) :
    c.unit.fileId = generatedFileId name (ofText source) := by
  obtain ⟨root, loaded, -, -, -, -, hunit, -⟩ := stages_of_compile h
  rw [CompiledUnit.fileId, (CompiledUnit.listing_of_assemble hunit).2]
  rfl

/-! ### One request -/

namespace Session

variable (s : Session) (files : Files) (source name : String)

/-- How a request is answered, and what becomes of the registry and of the units. -/
inductive Answers : Session × Except CompileError Cached → Prop where
  | found {t} {cached} (hunit : s.unit? source = some cached) (hregistry : t.registry = s.registry)
      (hunits : ∀ key other, (key, some other) ∈ t.entries → (key, some other) ∈ s.entries) :
      Answers (t, .ok cached)
  | failed {t} {e} (hregistry : t.registry = s.registry)
      (hunits : ∀ key other, (key, some other) ∈ t.entries → (key, some other) ∈ s.entries) :
      Answers (t, .error e)
  | compiled {t} {cached} (hcompile : Workflow.compile s.config files source name = .ok cached.compiled)
      (hregistry : t.registry = s.registry.register cached.compiled.unit.sourceMap)
      (hunits : ∀ key other, (key, some other) ∈ t.entries → (key = ofText source ∧ other = cached) ∨
        (key ≠ ofText source ∧ (key, some other) ∈ s.entries)) :
      Answers (t, .ok cached)

lemma answers_compile : Answers s files source name (s.compile files source name) := by
  rcases s.compile_cases files source name with ⟨cached, hunit, _, heq⟩ | ⟨_, t, ht, heq⟩
  · rw [heq]
    exact .found hunit rfl fun _ _ h => h
  · have hput : t.config = s.config ∧ t.registry = s.registry ∧
        ∀ key other, (key, some other) ∈ t.entries → (key, some other) ∈ s.entries := by
      rcases ht with ⟨_, rfl⟩ | rfl
      · exact ⟨rfl, rfl, fun _ _ h => h⟩
      · have hall : s.All fun key cached => (key, some cached) ∈ s.entries := fun _ _ h => h
        exact ⟨rfl, rfl, hall.put _⟩
    obtain ⟨hconfig, hregistry, hunits⟩ := hput
    rw [heq]
    unfold fill
    dsimp only
    split
    · exact .failed hregistry hunits
    · next c hc =>
      refine .compiled (hconfig ▸ hc) (congrArg (register · _) hregistry) fun key other hmem => ?_
      obtain ⟨e, he, heq⟩ := mem_map.1 hmem
      split at heq
      · obtain ⟨hkey, hother⟩ := Prod.mk.inj heq
        exact .inl ⟨hkey.symm, (Option.some.inj hother).symm⟩
      · next hkey =>
        subst heq
        exact .inr ⟨hkey, hunits key other he⟩

lemma registry_of_stale {s : Session} {files : Files} {source name : String}
    (hstale : ∀ cached, s.unit? source = some cached → isFresh files name cached.compiled = false) {c : Compiled}
    (h : Workflow.compile s.config files source name = .ok c) :
    (s.compile files source name).1.registry = s.registry.register c.unit.sourceMap := by
  rcases s.compile_cases files source name with ⟨cached, hunit, hfresh, _⟩ | ⟨_, t, ⟨_, rfl⟩ | rfl, heq⟩
  · rw [hstale cached hunit] at hfresh
    cases hfresh
  · simp [heq, fill, h]
  · simp [heq, fill, h, put]

end Session

/-! ### All requests -/

namespace Desk

variable {config : CompilerConfig} {texts : Set String} {d : Desk} {source name key : String} {cached : Cached}

lemma session_put (d : Desk) (file text : String) : (d.act (.put file text)).session = d.session := rfl

def Maps (d : Desk) (cached : Cached) : Prop :=
  d.session.registry.get? cached.compiled.unit.fileId = some cached.compiled.unit.sourceMap

/-- The registry has the maps of all units that the session has. -/
def Registered (d : Desk) : Prop := d.session.All fun _ cached => d.Maps cached

lemma registered_start (config : CompilerConfig) (registry : Registry) (files : Files) :
    (start config registry files).Registered := nofun

lemma injOn_ofText (h : Set.InjOn short texts) : Set.InjOn ofText texts :=
  fun _ ha _ hb heq => h ha hb (congrArg (fun digest => digest.toList.take 8) heq)

lemma Filled.fileId (h : Filled config texts key cached) : ∃ source ∈ texts, ofText source = key ∧
      cached.compiled.unit.fileId = generatedFileId cached.compiled.name (ofText source) := by
  obtain ⟨files, source, hsource, hkey, -, hcompile⟩ := h
  exact ⟨source, hsource, hkey, fileId_of_compile hcompile⟩

lemma Filled.eq_of_fileId (h : Filled config texts key cached) (hshort : Set.InjOn short texts)
    (hsource : source ∈ texts) (hid : generatedFileId name (ofText source) = cached.compiled.unit.fileId) :
    name = cached.compiled.name ∧ key = ofText source := by
  obtain ⟨other, hother, rfl, hfile⟩ := h.fileId
  obtain ⟨hname, heq⟩ := generatedFileId_inj (hid.trans hfile)
  exact ⟨hname, congrArg ofText (hshort hother hsource heq.symm)⟩

/-- The registry keeps the map of a unit, unless its source is compiled again under its name when an import has
changed. -/
lemma Maps.act (h : d.Maps cached) (hsound : d.Sound config texts)
    (hshort : Set.InjOn short texts) (hsource : source ∈ texts)
    (hfilled : Filled config texts (ofText source) cached)
    (a : Action) (hknown : ∀ text ∈ a.texts, text ∈ texts)
    (hsame : a = .compile source cached.compiled.name →
      isFresh d.files cached.compiled.name cached.compiled = true) : (d.act a).Maps cached := by
  cases a with
  | put | validate | clear => exact h
  | compile other name =>
    have hother := hknown other mem_cons_self
    have hanswer := d.session.answers_compile d.files other name
    rw [Maps, session_compile]
    generalize d.session.compile d.files other name = result at hanswer
    cases hanswer with
    | found _ hregistry _ | failed hregistry _ =>
      rw [hregistry]
      exact h
    | compiled hcompile hregistry _ =>
      rw [hsound.settings] at hcompile
      rw [hregistry, register, Table.get?_insert]
      split
      · next hid =>
        obtain ⟨rfl, hkey⟩ := hfilled.eq_of_fileId hshort hother ((fileId_of_compile hcompile).symm.trans hid)
        obtain rfl := injOn_ofText hshort hsource hother hkey
        have hnow := hfilled.compile (injOn_ofText hshort) hsource hsound.files (hsame rfl)
        rw [Except.ok.inj (hnow.symm.trans hcompile)]
      · exact h

lemma Registered.act (h : d.Registered) (hsound : d.Sound config texts)
    (hshort : Set.InjOn short texts) (a : Action) (hknown : ∀ text ∈ a.texts, text ∈ texts) :
    (d.act a).Registered := by
  cases a with
  | put | validate => exact h
  | clear => exact nofun
  | compile source name =>
    have hsource := hknown source mem_cons_self
    have hanswer := d.session.answers_compile d.files source name
    intro key cached hmem
    rw [session_compile] at hmem
    rw [Maps, session_compile]
    generalize d.session.compile d.files source name = result at hanswer hmem ⊢
    cases hanswer with
    | found _ hregistry hunits | failed hregistry hunits =>
      rw [hregistry]
      exact h key cached (hunits key cached hmem)
    | compiled hcompile hregistry hunits =>
      rw [hregistry, register]
      rcases hunits key cached hmem with ⟨-, rfl⟩ | ⟨hkey, hold⟩
      · exact Table.get?_insert_self ..
      · rw [Table.get?_insert_of_ne]
        · exact h key cached hold
        · intro hid
          exact hkey ((hsound.units key cached hold).eq_of_fileId hshort hsource
            ((fileId_of_compile hcompile).symm.trans hid)).2

lemma Registered.after : ∀ (actions : List Action) {d : Desk}, d.Registered → d.Sound config texts →
    Set.InjOn short texts → (∀ a ∈ actions, ∀ text ∈ a.texts, text ∈ texts) →
    (d.after actions).Registered
  | [], _, h, _, _, _ => h
  | a :: actions, _, h, hsound, hshort, hknown => by
    have ha := hknown a mem_cons_self
    exact Registered.after actions (h.act hsound hshort a ha) (hsound.act a ha) hshort
      fun b hb => hknown b (mem_cons_of_mem _ hb)

lemma Registered.compile (h : d.Registered) (hsound : d.Sound config texts) (hsource : source ∈ texts)
    (hcompile : (d.session.compile d.files source name).2 = .ok cached) :
    Filled config texts (ofText source) cached ∧ (d.act (.compile source name)).Maps cached := by
  have hanswer := d.session.answers_compile d.files source name
  rw [Maps, session_compile]
  generalize d.session.compile d.files source name = result at hanswer hcompile ⊢
  cases hanswer with
  | found hunit hregistry _ =>
    cases hcompile
    rw [hregistry]
    exact ⟨hsound.units.unit? hunit, h.unit? hunit⟩
  | failed => cases hcompile
  | compiled hunit hregistry _ =>
    cases hcompile
    rw [hregistry]
    refine ⟨?_, Table.get?_insert_self ..⟩
    obtain ⟨-, -, -, -, -, hname, -⟩ := loaded_of_compile hunit
    rw [hsound.settings, ← hname] at hunit
    exact ⟨d.files, source, hsource, rfl, hsound.files, hunit⟩

lemma Maps.after (hshort : Set.InjOn short texts) (hsource : source ∈ texts)
    (hfilled : Filled config texts (ofText source) cached) : ∀ (actions : List Action) {d : Desk},
    d.Maps cached → d.Sound config texts → (∀ a ∈ actions, ∀ text ∈ a.texts, text ∈ texts) →
    (∀ before after, actions = before ++ .compile source cached.compiled.name :: after →
      isFresh (d.after before).files cached.compiled.name cached.compiled = true) →
    (d.after actions).Maps cached
  | [], _, h, _, _, _ => h
  | a :: actions, _, h, hsound, hknown, hsame => by
    have ha := hknown a mem_cons_self
    have hfirst := h.act hsound hshort hsource hfilled a ha fun heq => hsame [] actions (heq ▸ rfl)
    refine Maps.after hshort hsource hfilled actions hfirst (hsound.act a ha)
      (fun b hb => hknown b (mem_cons_of_mem _ hb)) fun before after heq => ?_
    exact hsame (a :: before) after (heq ▸ rfl)

end Desk

/-- A unit that a request was answered by resolves through the registry to its own places, whatever is done
afterwards, as long as the texts differ in the start of their digests, and its source is not compiled again
under its name when a file that it imports has changed. -/
theorem resolve_eq_lookup {config : CompilerConfig} {registry : Registry} {files : Files}
    {actions later : List Desk.Action} {desk : Desk}
    (hdesk : (start config registry files).after actions = desk) {source name : String}
    (hshort : Set.InjOn Digest.short (texts files (actions ++ .compile source name :: later)))
    {cached : Cached} (hcompile : (desk.session.compile desk.files source name).2 = .ok cached)
    (hsame : ∀ before after, later = before ++ .compile source cached.compiled.name :: after →
      isFresh ((desk.act (.compile source name)).after before).files cached.compiled.name
        cached.compiled = true) (line : Nat) :
    ((desk.act (.compile source name)).after later).session.registry.resolve
      cached.compiled.unit.fileId line = cached.compiled.unit.sourceMap.lookup line ∧
    ∀ c : Context, c.unit = cached.compiled.unit →
      c.registry = ((desk.act (.compile source name)).after later).session.registry →
      (c.site line).place = cached.compiled.unit.sourceMap.lookup line := by
  have hsound : desk.Sound config (texts files (actions ++ .compile source name :: later)) :=
    hdesk ▸ sound_of_texts config registry files (subset_append_left _ _)
  have hknown : ∀ a ∈ actions ++ .compile source name :: later, ∀ text ∈ a.texts,
      text ∈ texts files (actions ++ .compile source name :: later) :=
    fun a ha text htext => Or.inr ⟨a, ha, htext⟩
  have hrequest : .compile source name ∈ actions ++ .compile source name :: later :=
    mem_append_right _ mem_cons_self
  have hsource := hknown _ hrequest source mem_cons_self
  have hregistered : desk.Registered := by
    have hstart := sound_of_texts config registry files (nil_subset (actions ++ .compile source name :: later))
    exact hdesk ▸ Desk.Registered.after actions (registered_start _ _ _) hstart hshort
      fun a ha => hknown a (mem_append_left _ ha)
  obtain ⟨hfilled, hmaps⟩ := hregistered.compile hsound hsource hcompile
  have hlater := Desk.Maps.after hshort hsource hfilled later hmaps (hsound.act _ (hknown _ hrequest))
    (fun a ha => hknown a (mem_append_right _ (mem_cons_of_mem _ ha))) hsame
  have hresolve : ((desk.act (.compile source name)).after later).session.registry.resolve
      cached.compiled.unit.fileId line = cached.compiled.unit.sourceMap.lookup line := by
    rw [resolve, hlater]
    rfl
  refine ⟨hresolve, ?_⟩
  rintro c hunit hregistry
  rw [Context.site, hunit, hregistry, hresolve]
  cases cached.compiled.unit.sourceMap.lookup line <;> rfl

/-! ### A library that moves -/

/-- The library with its flow one line further down. -/
def movedSource : String := "\n" ++ librarySource

lemma nodup_short : ([librarySource, movedSource, importSource].map short).Nodup := by
  decide +kernel

lemma exists_placed : ∃ c, compile {} [("lib", librarySource)] importSource "main" = .ok c ∧
    c.unit.sourceMap.lookup 2 = some ⟨"lib", 1, 1⟩ ∧
    isFresh [("lib", movedSource)] "main" c = false := by
  obtain ⟨_, _, c, -, -, hc, h⟩ := Program.exists_of_compilesTo (show Program.compilesTo
    [("lib", librarySource)] importSource "main" (fun _ _ c => decide
      (c.unit.sourceMap.lookup 2 = some ⟨"lib", 1, 1⟩) && !isFresh [("lib", movedSource)] "main" c)
      = true by decide +kernel)
  rw [Bool.and_eq_true, decide_eq_true_eq, Bool.not_eq_true'] at h
  exact ⟨c, hc, h⟩

lemma exists_placed_moved : ∃ c, compile {} [("lib", movedSource)] importSource "main" = .ok c ∧
    c.unit.sourceMap.lookup 2 = some ⟨"lib", 2, 1⟩ := by
  obtain ⟨_, _, c, -, -, hc, hplace⟩ := Program.exists_of_compilesTo (show Program.compilesTo
    [("lib", movedSource)] importSource "main" (fun _ _ c => decide
      (c.unit.sourceMap.lookup 2 = some ⟨"lib", 2, 1⟩)) = true by decide +kernel)
  exact ⟨c, hc, of_decide_eq_true hplace⟩

/-- A session that has the library and has compiled nothing. -/
def libraryDesk : Desk := (start {} [] []).after [.put "lib" librarySource]

/-- The importing source is dropped and compiled again, and its unit still resolves. -/
theorem resolve_eq_lookup_import : ∃ cached : Cached,
    Set.InjOn Digest.short (texts [] ([.put "lib" librarySource] ++ .compile importSource "main" ::
      [.clear, .compile importSource "main"])) ∧
    (libraryDesk.session.compile libraryDesk.files importSource "main").2 = .ok cached ∧
    isFresh libraryDesk.files cached.compiled.name cached.compiled = true ∧
    cached.compiled.unit.sourceMap.lookup 2 = some ⟨"lib", 1, 1⟩ ∧
    ((libraryDesk.act (.compile importSource "main")).after
      [.clear, .compile importSource "main"]).session.registry.resolve cached.compiled.unit.fileId 2 =
        some ⟨"lib", 1, 1⟩ := by
  obtain ⟨c, hcompile, hplace, -⟩ := exists_placed
  obtain ⟨-, -, -, -, -, hname, -⟩ := loaded_of_compile hcompile
  have hfresh : isFresh libraryDesk.files c.name c = true :=
    hname ▸ isFresh_of_compile hcompile
  have hfirst : (libraryDesk.session.compile libraryDesk.files importSource "main").2 = .ok ⟨0, c⟩ :=
    compile_new hcompile
  have hshort : Set.InjOn short (texts [] ([.put "lib" librarySource] ++
      .compile importSource "main" :: [.clear, .compile importSource "main"])) :=
    injOn_of_nodup nodup_short (by simp [texts, Desk.Action.texts])
  refine ⟨⟨0, c⟩, hshort, hfirst, hfresh, hplace, ?_⟩
  rw [← hplace]
  refine (resolve_eq_lookup rfl hshort hfirst (fun before after heq => ?_) 2).1
  rcases before with _ | ⟨a, _ | ⟨b, before⟩⟩
  · simp at heq
  · obtain ⟨rfl, -⟩ := List.cons.inj heq
    exact hfresh
  · simp at heq

/-- The library moves and the importing source is compiled again: the first unit now resolves to places of the
other text. -/
theorem resolve_ne_lookup_moved : ∃ cached : Cached,
    Set.InjOn Digest.short (Desk.texts [] ([.put "lib" librarySource] ++ .compile importSource "main" ::
      [.put "lib" movedSource, .compile importSource "main"])) ∧
    (libraryDesk.session.compile libraryDesk.files importSource "main").2 = .ok cached ∧
    cached.compiled.unit.sourceMap.lookup 2 = some ⟨"lib", 1, 1⟩ ∧
    ((libraryDesk.act (.compile importSource "main")).after
      [.put "lib" movedSource, .compile importSource "main"]).session.registry.resolve
        cached.compiled.unit.fileId 2 = some ⟨"lib", 2, 1⟩ := by
  obtain ⟨c, hcompile, hplace, hmoved⟩ := exists_placed
  obtain ⟨c', hcompile', hplace'⟩ := exists_placed_moved
  obtain ⟨old, hunit, hold, -⟩ := exists_importDesk
  obtain rfl : old = c := Except.ok.inj (hold.symm.trans hcompile)
  refine ⟨⟨0, old⟩, injOn_of_nodup nodup_short (by simp [Desk.texts, Desk.Action.texts]),
    compile_new hcompile, hplace, ?_⟩
  have hlast : (libraryDesk.act (.compile importSource "main")).after
      [.put "lib" movedSource, .compile importSource "main"] =
        (importDesk.act (.put "lib" movedSource)).act (.compile importSource "main") := by
    simp only [libraryDesk, importDesk, Desk.after, foldl_cons, foldl_nil]
  have hfiles : (importDesk.act (.put "lib" movedSource)).files = [("lib", movedSource)] := by
    simp [importDesk, Desk.after, Desk.act, Desk.start, Table.insert]
  have hconfig : importDesk.session.config = {} := (Desk.sound_of_texts {} [] [] (List.Subset.refl _)).settings
  have hregistry := @registry_of_stale importDesk.session [("lib", movedSource)] importSource "main"
    (fun cached h => by
      cases hunit.symm.trans h
      exact hmoved) c' (by rwa [hconfig])
  have hid : old.unit.fileId = c'.unit.fileId := (fileId_of_compile hcompile).trans (fileId_of_compile hcompile').symm
  rw [hlast, Desk.session_compile, hfiles, Desk.session_put, hregistry, resolve, register, hid,
    CompiledUnit.fileId, Table.get?_insert, if_pos rfl]
  exact hplace'

end Workflow
