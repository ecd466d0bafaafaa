import Workflow.Proofs.Values

/-!
Assignments to the end of a path of keys. An assignment succeeds just if a mapping stands at each proper prefix
of the path, and then the bindings read as before but for the assigned key. One that fails may leave behind a
local copy of a global, which reads as the global did.
-/

namespace Workflow

open Table Json

namespace Json

variable {place : String} {new v w : Json} {key : String} {path : List String}

def placeOf (place : String) (path : List String) : String :=
  path.foldl (fun place key => place ++ "." ++ key) place

lemma lookup_obj_cons (place : String) (fields : Table Json) (key : String) (path : List String) :
    lookup place (obj fields) (key :: path) = match get? fields key with
      | some v => lookup (place ++ "." ++ key) v path
      | none => .error (.missingKey place key) := by
  cases hget : get? fields key <;> rw [lookup, hget]

/-- What an assignment does at its first key: a mapping stands there, and its entry under the key takes the rest
of the assignment. -/
lemma assign_cons_eq_ok (h : assign place new v (key :: path) = .ok w) :
    ∃ fields entry, v = obj fields ∧ w = obj (insert fields key entry) ∧ (path = [] ∧ entry = new ∨
        ∃ old, get? fields key = some old ∧ assign (place ++ "." ++ key) new old path = .ok entry) := by
  cases v with
  | obj fields =>
    cases path with
    | nil =>
      cases h
      exact ⟨fields, new, rfl, rfl, .inl ⟨rfl, rfl⟩⟩
    | cons next rest =>
      simp only [assign] at h
      split at h
      · next old hold =>
        obtain ⟨entry, hentry, h⟩ := Except.bind_eq_ok.1 h
        cases h
        exact ⟨fields, entry, rfl, rfl, .inr ⟨old, hold, hentry⟩⟩
      · cases h
  | _ => cases path <;> cases h

lemma exists_assign_iff (new : Json) : ∀ (path : List String) (place : String) (v : Json),
    (∃ w, assign place new v path = .ok w) ↔
      ∀ parent key rest, path = parent ++ key :: rest → ∃ fields, lookup place v parent = .ok (obj fields)
  | [], place, v => by simp [assign]
  | key :: path, place, v => by
    constructor
    · rintro ⟨w, h⟩ parent next rest hpath
      obtain ⟨fields, entry, rfl, -, hentry⟩ := assign_cons_eq_ok h
      cases parent with
      | nil => exact ⟨fields, rfl⟩
      | cons first parent =>
        obtain ⟨rfl, hbelow⟩ := List.cons.inj hpath
        rcases hentry with ⟨hnil, -⟩ | ⟨old, hold, hentry⟩
        · simp [hnil] at hbelow
        · rw [lookup_obj_cons, hold]
          exact (exists_assign_iff new path _ old).1 ⟨entry, hentry⟩ parent next rest hbelow
    · intro h
      obtain ⟨fields, hfields⟩ := h [] key path rfl
      cases hfields
      cases path with
      | nil => exact ⟨_, rfl⟩
      | cons next rest =>
        -- a mapping stands behind the key, so the key is there
        obtain ⟨below, hbelow⟩ := h [key] next rest rfl
        rw [lookup_obj_cons] at hbelow
        cases hold : get? fields key with
        | none => simp [hold] at hbelow
        | some old =>
          have hdeeper : ∃ entry, assign (place ++ "." ++ key) new old (next :: rest) = .ok entry := by
            refine (exists_assign_iff new (next :: rest) _ old).2 fun parent key' rest' hpath => ?_
            have hlookup := h (key :: parent) key' rest' (congrArg (key :: ·) hpath)
            rwa [lookup_obj_cons, hold] at hlookup
          obtain ⟨entry, hentry⟩ := hdeeper
          refine ⟨obj (insert fields key entry), ?_⟩
          simp only [assign, hold, hentry]
          rfl

lemma lookup_assign_append : ∀ {path place v w} (place' : String)
    (more : List String), assign place new v path = .ok w →
    lookup place' w (path ++ more) = lookup (placeOf place' path) new more
  | [], _, _, _, _, _, h => by
    cases h
    rfl
  | key :: path, place, v, w, place', more, h => by
    obtain ⟨fields, entry, rfl, rfl, hentry⟩ := assign_cons_eq_ok h
    rw [List.cons_append, lookup_obj_cons, get?_insert_self]
    rcases hentry with ⟨rfl, rfl⟩ | ⟨old, -, hentry⟩
    · rfl
    · exact lookup_assign_append _ more hentry

lemma lookup_assign_aside : ∀ {path other place v w} (place' : String),
    assign place new v path = .ok w → ¬ path <+: other → ¬ other <+: path →
    lookup place' w other = lookup place' v other
  | [], other, _, _, _, _, _, hpath, _ => absurd List.nil_prefix hpath
  | _ :: _, [], _, _, _, _, _, _, hother => absurd List.nil_prefix hother
  | key :: path, key' :: other, place, v, w, place', h, hpath, hother => by
    obtain ⟨fields, entry, rfl, rfl, hentry⟩ := assign_cons_eq_ok h
    rw [lookup_obj_cons, lookup_obj_cons, get?_insert]
    by_cases heq : key = key'
    · subst heq
      rw [List.cons_prefix_cons] at hpath hother
      rcases hentry with ⟨rfl, -⟩ | ⟨old, hold, hentry⟩
      · exact absurd ⟨rfl, List.nil_prefix⟩ hpath
      · rw [if_pos rfl, hold]
        exact lookup_assign_aside _ hentry (fun h => hpath ⟨rfl, h⟩) (fun h => hother ⟨rfl, h⟩)
    · rw [if_neg heq]

/-- Above the assigned key stand the same mappings but for the entry on the way, which was there already unless it
is the assigned one. -/
lemma lookup_assign_above :
    ∀ {parent key rest place v w} (place' : String), assign place new v (parent ++ key :: rest) = .ok w →
    ∃ fields fields', lookup place' v parent = .ok (obj fields) ∧ lookup place' w parent = .ok (obj fields') ∧
      (∀ other, other ≠ key → get? fields' other = get? fields other) ∧ (rest ≠ [] → (get? fields key).isSome = true)
  | [], key, rest, place, v, w, place', h => by
    obtain ⟨fields, entry, rfl, rfl, hentry⟩ := assign_cons_eq_ok h
    refine ⟨fields, _, rfl, rfl, fun other hother => get?_insert_of_ne fields entry hother.symm, fun hrest => ?_⟩
    rcases hentry with ⟨hnil, -⟩ | ⟨old, hold, -⟩
    · exact absurd hnil hrest
    · rw [hold]
      rfl
  | first :: parent, key, rest, place, v, w, place', h => by
    obtain ⟨fields, entry, rfl, rfl, hentry⟩ := assign_cons_eq_ok h
    rcases hentry with ⟨hnil, -⟩ | ⟨old, hold, hentry⟩
    · simp at hnil
    · simp only [lookup_obj_cons, get?_insert_self, hold]
      exact lookup_assign_above _ hentry

end Json

namespace Bindings

variable {b b' : Bindings} {name : String} {path : List String} {v root new : Json}
  {f : Json → Except ValueError Json} {e : ValueError}

/-! ### Reading -/

/-- Each variable reads as it does in other bindings. -/
def ReadsAs (b b' : Bindings) : Prop :=
  ∀ name, b.get? name = b'.get? name ∧ ∀ path, b.getPath name path = b'.getPath name path

/-- Bindings in which the end of a path of keys in a variable has become a value. -/
structure Assigned (b : Bindings) (name : String) (path : List String) (v : Json) (b' : Bindings) : Prop where
  /-- The value is read back. -/
  value : b'.getPath name path = .ok v
  /-- Below the assigned key the new value is read. -/
  below : ∀ more, b'.getPath name (path ++ more) = lookup (placeOf ("$" ++ name) path) v more
  /-- Paths that go another way read as before, whether they lead to a value or not. -/
  aside : ∀ other, ¬ path <+: other → ¬ other <+: path → b'.getPath name other = b.getPath name other
  /-- On the way to the assigned key stand the same mappings but for the entry that leads to it, which was there
  already. -/
  above : ∀ parent key rest, path = parent ++ key :: rest → ∃ fields fields',
    b.getPath name parent = .ok (.obj fields) ∧ b'.getPath name parent = .ok (.obj fields') ∧
    (∀ other, other ≠ key → Table.get? fields' other = Table.get? fields other) ∧
    (rest ≠ [] → (Table.get? fields key).isSome = true)
  /-- Other variables read as before. -/
  others : ∀ other, other ≠ name → b'.get? other = b.get? other ∧ ∀ path, b'.getPath other path = b.getPath other path

lemma getPath_eq (b : Bindings) (name : String) (path : List String) : b.getPath name path = match b.get? name with
    | some v => lookup ("$" ++ name) v path
    | none => .error (.undefined name) := by
  unfold getPath get
  cases b.get? name <;> rfl

lemma getPath_of_get? (h : b.get? name = some v) (path : List String) :
    b.getPath name path = lookup ("$" ++ name) v path := by
  rw [getPath_eq, h]

lemma getPath_congr (h : b.get? name = b'.get? name) (path : List String) :
    b.getPath name path = b'.getPath name path := by
  rw [getPath_eq, getPath_eq, h]

lemma readsAs_set (h : b.get? name = some v) : (b.set name v).ReadsAs b := by
  intro other
  have hget : (b.set name v).get? other = b.get? other := by
    rw [get?_set]
    split
    · next heq => rw [← heq, h]
    · rfl
  exact ⟨hget, getPath_congr hget⟩

/-! ### Changing -/

lemma change_ok_iff : (b.change name f).2 = .ok () ↔ ∃ root, b.get? name = some root ∧ ∃ new, f root = .ok new := by
  unfold change
  cases b.get? name with
  | none => simp
  | some root => cases hf : f root <;> simp [hf]

lemma change_of_ok (hroot : b.get? name = some root) (hnew : f root = .ok new) :
    b.change name f = (b.set name new, .ok ()) := by
  rw [change, hroot]
  dsimp only
  rw [hnew]

lemma change_readsAs (h : (b.change name f).2 = .error e) : (b.change name f).1.ReadsAs b := by
  unfold change at h ⊢
  split
  · exact fun _ => ⟨rfl, fun _ => rfl⟩
  · next v hget =>
    simp only [hget] at h
    split at h
    · cases h
    · exact readsAs_set hget

lemma globals_change (b : Bindings) (name : String) (f : Json → Except ValueError Json) :
    (b.change name f).1.globals = b.globals := by
  rcases change_fst b name f with h | ⟨v, h⟩
  · rw [h]
  · rw [h]
    rfl

lemma setPath_of_ne_nil (b : Bindings) (name : String) (v : Json) (h : path ≠ []) :
    b.setPath name path v = b.change name fun root => assign ("$" ++ name) v root path := by
  rw [setPath, if_neg (by simpa using h)]

lemma globals_push (b : Bindings) (name : String) (v : Json) : (b.push name v).1.globals = b.globals := by
  obtain ⟨w, hw⟩ := push_fst b name v
  rw [hw]
  rfl

lemma push_readsAs (h : (b.push name v).2 = .error e) : (b.push name v).1.ReadsAs b := by
  unfold push at h ⊢
  split at h
  · next hbound =>
    rw [if_pos hbound]
    exact change_readsAs h
  · cases h

lemma assigned_set (hroot : b.get? name = some root) (hnew : assign ("$" ++ name) v root path = .ok new) :
    b.Assigned name path v (b.set name new) := by
  have hbefore := getPath_of_get? hroot
  have hafter : ∀ path, (b.set name new).getPath name path = lookup ("$" ++ name) new path :=
    getPath_of_get? (by rw [get?_set, if_pos rfl])
  have hbelow : ∀ more, (b.set name new).getPath name (path ++ more) =
      lookup (placeOf ("$" ++ name) path) v more := fun more => by
    rw [hafter, lookup_assign_append _ more hnew]
  refine ⟨?_, hbelow, fun other hpath hother => ?_, ?_, fun other hother => ?_⟩
  · rw [← List.append_nil path, hbelow, lookup]
  · rw [hafter, hbefore, lookup_assign_aside _ hnew hpath hother]
  · rintro parent key rest rfl
    rw [hafter, hbefore]
    exact lookup_assign_above _ hnew
  · have hget : (b.set name new).get? other = b.get? other := by rw [get?_set, if_neg hother.symm]
    exact ⟨hget, getPath_congr hget⟩

/-- The end of a path can be given a value just if its variable has one and a mapping stands at each proper
prefix. Then the value is there, and nothing else is read in another way; otherwise every variable reads as
before, and so it does where an item cannot be appended. The globals never change. -/
theorem setPath_assigns_or_keeps (b : Bindings) (name : String) {path : List String} (hpath : path ≠ []) (v : Json) :
    ((b.setPath name path v).2 = .ok () ↔ b.contains name = true ∧ ∀ parent key rest,
      path = parent ++ key :: rest → ∃ fields, b.getPath name parent = .ok (.obj fields)) ∧
    ((b.setPath name path v).2 = .ok () → b.Assigned name path v (b.setPath name path v).1) ∧
    (∀ e, (b.setPath name path v).2 = .error e → (b.setPath name path v).1.ReadsAs b) ∧
    (∀ e, (b.push name v).2 = .error e → (b.push name v).1.ReadsAs b) ∧
    (b.setPath name path v).1.globals = b.globals ∧ (b.push name v).1.globals = b.globals := by
  rw [setPath_of_ne_nil b name v hpath]
  refine ⟨?_, fun h => ?_, fun e => change_readsAs, fun e => push_readsAs, globals_change .., globals_push ..⟩
  · rw [change_ok_iff, contains]
    cases hroot : b.get? name with
    | none => simp
    | some root => simp [getPath_of_get? hroot, exists_assign_iff]
  · obtain ⟨root, hroot, new, hnew⟩ := change_ok_iff.1 h
    rw [change_of_ok hroot hnew]
    exact assigned_set hroot hnew

def nestedSample : Bindings :=
  { globals := [("doc", .obj [("head", .obj [("title", .str "old")]), ("pages", .nat 3)])] }

theorem setPath_assigns_or_keeps_nested : ["head", "title"] ≠ [] ∧ ["pages", "first"] ≠ [] ∧
    (nestedSample.setPath "doc" ["head", "title"] (.str "new")).2 = .ok () ∧
    nestedSample.Assigned "doc" ["head", "title"] (.str "new") (nestedSample.setPath "doc" ["head", "title"] (.str "new")).1 ∧
    (nestedSample.setPath "doc" ["pages", "first"] (.str "new")).2 =
      .error (.typeMismatch "$doc.pages" "a mapping" "a number") ∧
    (nestedSample.setPath "doc" ["pages", "first"] (.str "new")).1.ReadsAs nestedSample ∧
    (nestedSample.push "doc" (.str "new")).2 = .error (.typeMismatch "$doc" "a list" "a mapping") ∧
    (nestedSample.push "doc" (.str "new")).1.ReadsAs nestedSample := by
  obtain ⟨-, hassigned, -⟩ := setPath_assigns_or_keeps nestedSample "doc" (List.cons_ne_nil "head" ["title"]) (.str "new")
  obtain ⟨-, -, hkept, hpushed, -⟩ :=
    setPath_assigns_or_keeps nestedSample "doc" (List.cons_ne_nil "pages" ["first"]) (.str "new")
  exact ⟨by decide, by decide, rfl, hassigned rfl, rfl, hkept _ rfl, rfl, hpushed _ rfl⟩

end Bindings

end Workflow
