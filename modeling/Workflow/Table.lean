/-!
Finite maps from names. A table lists its entries in strictly increasing order of their names, so
two tables with the same entries are the same list. Names are compared character by character,
which for Unicode scalar values is also the order of their UTF-8 bytes.

The main statements say what `insert` and `erase` do to `get?`.
-/

namespace Workflow

/-- Entries by name, in increasing order of the names. -/
abbrev Table (α : Type) := List (String × α)

namespace Table

variable {α : Type}

def get? : Table α → String → Option α
  | [], _ => none
  | (k, v) :: rest, name => if k = name then some v else get? rest name

def contains (t : Table α) (name : String) : Bool := (t.get? name).isSome

def insert : Table α → String → α → Table α
  | [], name, a => [(name, a)]
  | (k, v) :: rest, name, a =>
    if name < k then (name, a) :: (k, v) :: rest
    else if k = name then (name, a) :: rest
    else (k, v) :: insert rest name a

def erase (t : Table α) (name : String) : Table α := t.filter fun e => e.1 ≠ name

/-- The table of a list of entries; of two entries with one name the later one stays. -/
def ofList (entries : List (String × α)) : Table α :=
  entries.foldl (fun t e => t.insert e.1 e.2) []

/-- All entries of both tables; the second table wins where both have a name. -/
def override (t u : Table α) : Table α := u.foldl (fun t e => t.insert e.1 e.2) t

/-- The names that have an entry, in increasing order. -/
def names (t : Table α) : List String := t.map (·.1)

/-- Changes the entry under a name, if there is one. -/
def modify (t : Table α) (name : String) (f : α → α) : Table α :=
  t.map fun e => if e.1 = name then (e.1, f e.2) else e

@[simp] theorem get?_nil (name : String) : get? ([] : Table α) name = none := rfl

theorem get?_cons (k : String) (v : α) (rest : Table α) (name : String) :
    get? ((k, v) :: rest) name = if k = name then some v else get? rest name := rfl

@[simp] theorem get?_insert_self : ∀ (t : Table α) (name : String) (a : α), (t.insert name a).get? name = some a
  | [], name, a => by simp [insert, get?]
  | (k, v) :: rest, name, a => by
    unfold insert
    split
    · simp [get?]
    · split
      · simp [get?]
      · next h => simp [get?, h, get?_insert_self rest name a]

theorem get?_insert_of_ne : ∀ (t : Table α) {name other : String} (a : α), name ≠ other →
    (t.insert name a).get? other = t.get? other
  | [], name, other, a, h => by simp [insert, get?, h]
  | (k, v) :: rest, name, other, a, h => by
    unfold insert
    split
    · simp [get?, h]
    · split
      · next hk => subst hk; simp [get?, h]
      · simp [get?, get?_insert_of_ne rest a h]

theorem get?_insert (t : Table α) (name other : String) (a : α) :
    (t.insert name a).get? other = if name = other then some a else t.get? other := by
  by_cases h : name = other
  · subst h; simp
  · simp [h, get?_insert_of_ne t a h]

theorem get?_erase (name other : String) : ∀ t : Table α,
    (t.erase name).get? other = if name = other then none else t.get? other
  | [] => by simp [erase]
  | (k, v) :: rest => by
    have ih := get?_erase name other rest
    unfold erase at ih ⊢
    grind [get?_cons]

theorem get?_erase_of_ne (t : Table α) {name other : String} (h : name ≠ other) :
    (t.erase name).get? other = t.get? other := by rw [get?_erase, if_neg h]

theorem mem_of_get? {name : String} {a : α} : ∀ {t : Table α}, t.get? name = some a → (name, a) ∈ t
  | (k, v) :: rest, h => by
    rw [get?_cons] at h
    split at h
    · next heq =>
      cases h
      exact heq ▸ List.mem_cons_self
    · exact List.mem_cons_of_mem _ (mem_of_get? h)

end Table

end Workflow
