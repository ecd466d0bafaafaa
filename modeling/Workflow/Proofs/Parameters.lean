import Workflow.Proofs.Instructions
import Workflow.Proofs.Linked

/-!
Parameters of models on their way to requests. A model is registered with the last value of each parameter, and
a request on it carries them: the limit of tokens if it has 32 bits, the temperature if it is finite.
-/

namespace Workflow

open List Lower

/-! ### Requests on models -/

namespace Context

def On (c : Context) (name : String) (r : Request) : Prop :=
  ∃ m messages tools, c.model (some name) none = .ok m ∧ r = request m messages tools

def Directed (c : Context) (asked : List Exchange) : Prop := ∀ x ∈ asked, ∃ name, c.On name x.request

lemma directed_mergeable (c : Context) : Mergeable c.Directed where
  nil := nofun
  append hxs hys := forall_mem_append.2 ⟨hxs, hys⟩
  interleaves hparts order x hx := by
    obtain ⟨i, hi⟩ := order.exists_mem hx
    exact hparts i x hi

lemma directed_asking (c : Context) : Asking c fun x => x.run.Asks c.Directed := by
  have hrules := c.directed_mergeable.composable c
  refine { hrules with
    toTalking := hrules.talking
    request := fun {requested declared m} hm messages tools asked r htrail => ?_
    instruction := fun _ _ _ => hrules.fault _
    model := fun _ _ _ => hrules.fault _
    schema := fun _ _ _ => hrules.fault _ }
  have hon : c.On ((requested <|> declared).getD "main") (request m messages tools) :=
    ⟨m, messages, tools, hm, rfl⟩
  rcases htrail with _ | _ | _ | _ | ⟨reply, after⟩
  · exact nofun
  · exact forall_mem_singleton.2 ⟨_, hon⟩
  · exact forall_mem_cons.2 ⟨⟨_, hon⟩, c.directed_mergeable.asks_done _ _ _ after⟩

lemma on_of_run {σ : Type} (c : Context) (client : Client σ) (state : σ) (fuel : Nat) (entry : Entry)
    (args : List Json) : ∀ r ∈ (c.run client state fuel entry args).requests, ∃ name, c.On name r := by
  have hanswering : Answering c fun x => x.run.Asks c.Directed := {
    agent := fun hguard _ => c.directed_asking.runAgent (fun event text _ => hguard event text)
      fun _ => (c.directed_mergeable.composable c).fault _
    prompt := fun hguard _ args _ => c.directed_asking.callPrompt (fun event text _ => hguard event text)
      (fun _ => (c.directed_mergeable.composable c).fault _)
      (fun _ _ _ => (c.directed_mergeable.composable c).fault _) args }
  obtain ⟨asked, hasked, htrail⟩ := Machine.trail_of_run client state fuel (c.process fuel entry args).run
  intro r hr
  obtain ⟨x, hx, rfl⟩ : ∃ x ∈ asked, x.request = r := mem_map.1 (hasked.symm ▸ hr)
  exact c.directed_mergeable.asks_process hanswering fuel entry args _ _ htrail x hx

end Context

/-! ### Accepted parameters -/

/-- The value of the last property with a name. -/
def ModelDef.last? (d : ModelDef) (key : String) : Option Literal :=
  (d.properties.reverse.find? (·.1.node = key)).map (·.2.node)

lemma Table.get?_ofList {α : Type} (entries : List (String × α)) (name : String) :
    (ofList entries).get? name = (entries.reverse.find? (·.1 = name)).map (·.2) := by
  rw [ofList, ← foldr_reverse]
  induction entries.reverse with
  | nil => rfl
  | cons e rest ih =>
    rw [foldr_cons, get?_insert, find?_cons]
    by_cases h : e.1 = name <;> simp [h, ih]

namespace ModelDef

variable {d : ModelDef} {l : Literal} {key : String}

lemma get?_params (h : d.last? key = some l) : (modelSpec d).params.get? key = some l.value := by
  obtain ⟨property, hfind, rfl⟩ := Option.map_eq_some_iff.1 h
  rw [modelSpec, Table.get?_ofList, ← map_reverse, find?_map, Option.map_map]
  exact Option.map_eq_some_iff.2 ⟨property, hfind, rfl⟩

lemma mem_of_last? (h : d.last? key = some l) : ∃ span place, (⟨key, span⟩, ⟨l, place⟩) ∈ d.properties := by
  obtain ⟨⟨⟨k, span⟩, ⟨_, place⟩⟩, hfind, rfl⟩ := Option.map_eq_some_iff.1 h
  obtain rfl : k = key := by simpa using find?_some hfind
  exact ⟨span, place, mem_reverse.1 (mem_of_find?_eq_some hfind)⟩

/-- What becomes of the parameters of a model: of a positive limit if it has 32 bits, of a temperature if it
is finite. -/
structure Delivers (d : ModelDef) (temperature : Option Float) (maxTokens : Option Nat) : Prop where
  maxTokens : ∀ l, d.last? "max_tokens" = some l → ∃ n : Nat, 0 < n ∧ l = .int n ∧
    maxTokens = if n ≤ 0xffffffff then some n else none
  temperature : ∀ l, d.last? "temperature" = some l →
    (∃ n, l = .int n ∧ temperature = some (Number.int n).toFloat) ∨
      ∃ x, l = .float x ∧ temperature = if x.isFinite then some x else none

lemma delivers_of_checked (hchecked : Analysis.Harmless (Analysis.checkModel d)) :
    d.Delivers (modelSpec d).temperature (modelSpec d).maxTokens := by
  have hproperty {k v} (hmem : (k, v) ∈ d.properties) := Analysis.harmless_flatMap.1 hchecked (k, v) hmem
  constructor
  · intro l h
    obtain ⟨span, place, hmem⟩ := mem_of_last? h
    have hvalid := hproperty hmem
    rw [ModelSpec.maxTokens, get?_params h]
    cases l with
    | int n =>
      have hpositive : 0 < n := by
        by_contra hn
        simp [hn, Cause.code, Code.severity] at hvalid
      obtain ⟨n, rfl⟩ := Int.eq_ofNat_of_zero_le (Int.le_of_lt hpositive)
      refine ⟨n, Int.natCast_pos.1 hpositive, rfl, ?_⟩
      by_cases hn : n ≤ 0xffffffff
      · have hwide : (n : Int) ≤ Number.maxUnsigned := by unfold Number.maxUnsigned; omega
        simp [Literal.value, Json.int, Number.unsigned?, hwide, hn]
      · simpa [Literal.value, Json.int, Number.unsigned?, hn] using fun _ => Nat.lt_of_not_le hn
    | _ => simp [Cause.code, Code.severity] at hvalid
  · intro l h
    obtain ⟨span, place, hmem⟩ := mem_of_last? h
    have hvalid := hproperty hmem
    rw [ModelSpec.temperature, get?_params h]
    cases l with
    | int n => exact .inl ⟨n, rfl, rfl⟩
    | float x =>
      refine .inr ⟨x, rfl, ?_⟩
      rw [Literal.value, Json.float]
      cases x.isFinite <;> rfl
    | _ => simp [Cause.code, Code.severity] at hvalid

end ModelDef

/-! ### Compiled models -/

open Analysis

lemma CompiledUnit.Lowers.delivers {u : CompiledUnit} (h : u.Lowers (decls programs)) (hclean : Clean programs)
    (hd : .model d ∈ decls programs) :
    ∃ m, u.models.get? d.name.node = some m ∧ m.model = d.model.node ∧ d.Delivers m.temperature m.maxTokens ∧
      ∀ c : Context, c.unit = u → ∀ r, c.On d.name.node r →
        r.model = d.model.node ∧ d.Delivers r.temperature r.maxTokens := by
  have hget : u.models.get? d.name.node = some (modelSpec d) :=
    h.models.get?.2 (mem_filterMap.2 ⟨_, hd, rfl⟩)
  have hdelivers := ModelDef.delivers_of_checked (checked_of_clean hclean hd)
  refine ⟨_, hget, rfl, hdelivers, fun c hunit r ⟨m, messages, tools, hm, hr⟩ => ?_⟩
  have hmodel : c.model (some d.name.node) none = .ok (modelSpec d) := by
    subst hunit
    simp [Context.model, hget]
  cases hm.symm.trans hmodel
  exact hr ▸ ⟨rfl, hdelivers⟩

/-- A model of an accepted source is in the unit under its name, and it delivers its parameters to every request
that is made on it; and all requests of runs are on models with names. -/
theorem compile_delivers {files : Files} {source name : String} {root : Program} {loaded : Loaded}
    (hroot : Program.ofSource source name = .ok root) (hloaded : root.load files = .ok loaded)
    (hclean : (loaded.diagnostics ++ (analyze root loaded.imports).diagnostics).any Diagnostic.isError = false)
    (config : CompilerConfig) :
    ∃ compiled, compile config files source name = .ok compiled ∧
      (∀ d, .model d ∈ (root :: loaded.imports).flatMap (·.decls) →
        ∃ m, compiled.unit.models.get? d.name.node = some m ∧ m.model = d.model.node ∧
          d.Delivers m.temperature m.maxTokens ∧
          ∀ c : Context, c.unit = compiled.unit → ∀ r, c.On d.name.node r →
            r.model = d.model.node ∧ d.Delivers r.temperature r.maxTokens) ∧
      ∀ c : Context, c.unit = compiled.unit → ∀ {σ : Type} (client : Client σ) (state : σ) (fuel : Nat)
        (entry : Entry) (args : List Json), ∀ r ∈ (c.run client state fuel entry args).requests,
        ∃ name, c.On name r := by
  obtain ⟨hclean, u, hlowers, hcompile⟩ := compile_of_clean hroot hloaded hclean config
  exact ⟨_, hcompile, fun d hd => hlowers.delivers hclean hd, fun c _ {_} => c.on_of_run⟩

/-- A source with a model whose limit of tokens is given twice. -/
def limitSource (limit : String) : String :=
  "model m = \"x\":\n  max_tokens: 5\n  temperature: 1\n  max_tokens: " ++ limit ++ "\n"

def Decl.limit? : Decl → Option Int
  | .model d => match d.last? "max_tokens" with
    | some (.int n) => if d.name.node = "m" then some n else none
    | _ => none
  | _ => none

/-- A source that is accepted and declares the model with a limit. -/
structure Limits (source : String) (limit : Int) (root : Program) (loaded : Loaded) (d : ModelDef) : Prop where
  parses : Program.ofSource source "main" = .ok root
  loads : root.load [] = .ok loaded
  accepted : (loaded.diagnostics ++ (analyze root loaded.imports).diagnostics).any Diagnostic.isError = false
  declared : .model d ∈ (root :: loaded.imports).flatMap (·.decls)
  name : d.name.node = "m"
  limit : d.last? "max_tokens" = some (.int limit)

lemma exists_limits (source : String) (limit : Int) (h : Program.compilesTo [] source "main"
    (fun root _ _ => root.decls.any (·.limit? = some limit)) = true) :
    ∃ root loaded d, Limits source limit root loaded d := by
  obtain ⟨root, loaded, compiled, hroot, hloaded, hcompiled, h⟩ := Program.exists_of_compilesTo h
  obtain ⟨decl, hdecl, h⟩ := any_eq_true.1 h
  have hlimit := of_decide_eq_true h
  unfold Decl.limit? at hlimit
  split at hlimit
  · next d =>
    split at hlimit
    · next hlast =>
      obtain ⟨hname, hn⟩ := Option.ite_none_right_eq_some.1 hlimit
      cases hn
      exact ⟨root, loaded, d, hroot, hloaded, noErrors_of_compile hroot hloaded hcompiled,
        mem_flatMap.2 ⟨root, .head _, hdecl⟩, hname, hlast⟩
    · cases hlimit
  · cases hlimit

/-- The greatest limit that is delivered. -/
theorem compile_delivers_greatest : ∃ root loaded d compiled,
    Limits (limitSource "4294967295") 4294967295 root loaded d ∧
    compile {} [] (limitSource "4294967295") "main" = .ok compiled ∧
    ∀ c : Context, c.unit = compiled.unit → ∀ r, c.On "m" r → r.maxTokens = some 4294967295 := by
  obtain ⟨root, loaded, d, h⟩ := exists_limits (limitSource "4294967295") 4294967295 (by decide +kernel)
  obtain ⟨compiled, hcompiled, hmodels, -⟩ := compile_delivers h.parses h.loads h.accepted {}
  refine ⟨root, loaded, d, compiled, h, hcompiled, fun c hunit r hr => ?_⟩
  obtain ⟨-, -, -, -, hrequests⟩ := hmodels d h.declared
  obtain ⟨n, -, hn, hlimit⟩ := (hrequests c hunit r (h.name ▸ hr)).2.maxTokens _ h.limit
  cases hn
  exact hlimit

/-- The limit above it is accepted, and no request has it. -/
theorem compile_drops : ∃ root loaded d compiled, Limits (limitSource "4294967296") 4294967296 root loaded d ∧
    compile {} [] (limitSource "4294967296") "main" = .ok compiled ∧
    ∀ c : Context, c.unit = compiled.unit → ∀ r, c.On "m" r → r.maxTokens = none := by
  obtain ⟨root, loaded, d, h⟩ := exists_limits (limitSource "4294967296") 4294967296 (by decide +kernel)
  obtain ⟨hclean, u, hlowers, hcompile⟩ := compile_of_clean h.parses h.loads h.accepted {}
  refine ⟨root, loaded, d, _, h, hcompile, fun c hunit r hr => ?_⟩
  obtain ⟨-, -, -, -, hrequests⟩ := hlowers.delivers hclean h.declared
  obtain ⟨n, -, hn, hlimit⟩ := (hrequests c hunit r (h.name ▸ hr)).2.maxTokens _ h.limit
  cases hn
  exact hlimit

end Workflow
