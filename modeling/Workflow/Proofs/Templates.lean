import Workflow.Prompt.Template
import Mathlib.Data.List.TakeWhile

/-!
What a template depends on. Its pieces are fixed by the text alone, and values are put in for whole pieces, so
that a value is never read again. A template is blind to the value of a name just if it has no placeholder of
it.
-/

namespace Workflow

open List

namespace Piece

variable {c : Char} {name : String} {path : List String} {text rest : List Char} {pieces : List Piece}

def IsName (name : String) : Prop :=
  ∃ c rest, name.toList = c :: rest ∧ startsName c = true ∧ ∀ d ∈ rest, inName d = true

/-- Whether a placeholder that stands in front would go on with a text. -/
def goesOn : List Char → Bool
  | '.' :: after => after.head?.any startsName
  | text => text.head?.any inName

/-- A template with its pieces. -/
inductive Splits : List Char → List Piece → Prop
  | nil : Splits [] []
  | char {c : Char} {rest : List Char} {pieces : List Piece} (hc : c = '$' → rest.head?.any startsName = false)
      (h : Splits rest pieces) : Splits (c :: rest) (char c :: pieces)
  | placeholder {name : String} {path : List String} {rest : List Char} {pieces : List Piece}
      (hnames : ∀ n ∈ name :: path, IsName n) (hend : goesOn rest = false) (h : Splits rest pieces) :
      Splits ((placeholder name path).source.toList ++ rest) (placeholder name path :: pieces)

def keys (path : List String) : List Char := path.flatMap fun key => '.' :: key.toList

lemma toList_source (name : String) (path : List String) :
    (placeholder name path).source.toList = '$' :: (name.toList ++ keys path) := by
  have hjoin : ∀ name : String, ['.'].intercalate ((name :: path).map String.toList) = name.toList ++ keys path := by
    induction path with
    | nil => simp [keys]
    | cons key path ih =>
      intro name
      rw [map_cons, map_cons, intercalate_cons_cons, ← map_cons, ih]
      simp [keys]
  simp only [source, String.toList_append, String.toList_intercalate]
  exact congrArg ('$' :: ·) (hjoin name)

lemma takeName?_append (hname : IsName name) (hrest : rest.head?.any inName = false) :
    takeName? (name.toList ++ rest) = some (name, rest) := by
  obtain ⟨c, letters, heq, hc, hletters⟩ := hname
  have hstop : rest.takeWhile inName = [] ∧ rest.dropWhile inName = rest := by cases rest <;> simp_all
  rw [heq, cons_append, takeName?, if_pos hc, takeWhile_append_of_pos hletters,
    dropWhile_append_of_pos hletters, hstop.1, hstop.2, append_nil, ← heq, String.ofList_toList]

lemma takeName?_eq_some (h : takeName? text = some (name, rest)) :
    IsName name ∧ text = name.toList ++ rest ∧ rest.head?.any inName = false := by
  cases text with
  | nil => cases h
  | cons c text =>
    simp only [takeName?, Option.ite_none_right_eq_some, Option.some.injEq, Prod.mk.injEq] at h
    obtain ⟨hc, rfl, rfl⟩ := h
    refine ⟨⟨c, _, String.toList_ofList, hc, fun d hd => mem_takeWhile_imp hd⟩, ?_, ?_⟩
    · rw [String.toList_ofList, cons_append, takeWhile_append_dropWhile]
    · have hhead := List.head?_dropWhile_not inName text
      cases hrest : (text.dropWhile inName).head? <;> simp_all

lemma takeName?_eq_none : takeName? text = none ↔ text.head?.any startsName = false := by
  cases text <;> simp [takeName?]

lemma takeKeys_spec (text : List Char) : text = keys (takeKeys text).1 ++ (takeKeys text).2.1 ∧
    (∀ key ∈ (takeKeys text).1, IsName key) ∧
    (text.head?.any inName = false → goesOn (takeKeys text).2.1 = false) := by
  fun_induction takeKeys text with
  | case1 after key rest hkey shorter path last hlast ih =>
    obtain ⟨hname, rfl, hhead⟩ := takeName?_eq_some hkey
    rw [hlast] at ih
    obtain ⟨hrest, hnames, hend⟩ := ih
    refine ⟨?_, forall_mem_cons.2 ⟨hname, hnames⟩, fun _ => hend hhead⟩
    exact (congrArg (fun r => '.' :: (key.toList ++ r)) hrest).trans (by simp [keys])
  | case2 after hnone => exact ⟨rfl, nofun, fun _ => takeName?_eq_none.1 hnone⟩
  | case3 text hdot =>
    refine ⟨rfl, nofun, fun hhead => ?_⟩
    unfold goesOn
    split
    · next heq => exact (hdot _ heq).elim
    · exact hhead

lemma splits_ofText (text : List Char) : Splits text (ofText text) := by
  fun_induction ofText text with
  | case1 => exact .nil
  | case2 after name rest htake _ path last hlast _ ih =>
    obtain ⟨hname, rfl, hhead⟩ := takeName?_eq_some htake
    have hkeys := takeKeys_spec rest
    rw [hlast] at hkeys
    have hplaceholder := Splits.placeholder (forall_mem_cons.2 ⟨hname, hkeys.2.1⟩) (hkeys.2.2 hhead) ih
    rw [toList_source, cons_append, append_assoc, ← hkeys.1] at hplaceholder
    exact hplaceholder
  | case3 after hnone ih => exact .char (fun _ => takeName?_eq_none.1 hnone) ih
  | case4 c after hc ih => exact .char (fun h => absurd h hc) ih

lemma head_keys (hend : goesOn rest = false) (path : List String) : (keys path ++ rest).head?.any inName = false := by
  cases path with
  | cons key path => rfl
  | nil =>
    rcases rest with _ | ⟨c, rest⟩
    · rfl
    · by_cases hc : c = '.'
      · subst hc
        rfl
      · simpa [goesOn, hc, keys] using hend

lemma goesOn_keys (hkey : IsName key) (path : List String) (rest : List Char) :
    goesOn (keys (key :: path) ++ rest) = true := by
  obtain ⟨c, letters, heq, hc, -⟩ := hkey
  simp [keys, goesOn, heq, hc]

lemma keys_inj : ∀ {path path' rest rest'}, (∀ key ∈ path, IsName key) →
    (∀ key ∈ path', IsName key) → goesOn rest = false → goesOn rest' = false →
    keys path ++ rest = keys path' ++ rest' → path = path' ∧ rest = rest'
  | [], [], _, _, _, _, _, _, h => ⟨rfl, h⟩
  | [], key :: path', _, rest', _, hpath', hend, _, h => by
    have hon := goesOn_keys (hpath' key mem_cons_self) path' rest'
    rw [← h] at hon
    exact absurd (hend.symm.trans hon) Bool.false_ne_true
  | key :: path, [], rest, _, hpath, _, _, hend', h => by
    have hon := goesOn_keys (hpath key mem_cons_self) path rest
    rw [h] at hon
    exact absurd (hend'.symm.trans hon) Bool.false_ne_true
  | key :: path, key' :: path', rest, rest', hnames, hnames', hend, hend', h => by
    obtain ⟨hkey, hpath⟩ := forall_mem_cons.1 hnames
    obtain ⟨hkey', hpath'⟩ := forall_mem_cons.1 hnames'
    have htake := takeName?_append hkey (head_keys hend path)
    have htext : key.toList ++ (keys path ++ rest) = key'.toList ++ (keys path' ++ rest') := by simpa [keys] using h
    rw [htext, takeName?_append hkey' (head_keys hend' path'), Option.some.injEq, Prod.mk.injEq] at htake
    rw [htake.1, (keys_inj hpath hpath' hend hend' htake.2.symm).1]
    exact ⟨rfl, (keys_inj hpath hpath' hend hend' htake.2.symm).2⟩

lemma ofText_of_splits (h : Splits text pieces) : ofText text = pieces := by
  induction h with
  | nil => simp [ofText]
  | @char c rest pieces hc h ih =>
    unfold ofText
    dsimp only
    split_ifs with hdollar
    · have hnone := takeName?_eq_none.2 (hc hdollar)
      split
      · next hsome => simp [hnone] at hsome
      · rw [ih]
    · rw [ih]
  | @placeholder name path rest pieces hnames hend h ih =>
    obtain ⟨hname, hpath⟩ := forall_mem_cons.1 hnames
    have htake := takeName?_append hname (head_keys hend path)
    obtain ⟨htext, hnames', hend'⟩ := takeKeys_spec (keys path ++ rest)
    obtain ⟨hkeys, hlast⟩ := keys_inj hpath hnames' hend (hend' (head_keys hend path)) htext
    rw [toList_source, cons_append, append_assoc]
    unfold ofText
    dsimp only
    rw [if_pos rfl]
    split
    · next hsome =>
      rw [htake] at hsome
      cases hsome
      rw [← hkeys, ← hlast, ih]
    · next hnone => simp [htake] at hnone

lemma splits_iff : Splits text pieces ↔ pieces = ofText text :=
  ⟨fun h => (ofText_of_splits h).symm, fun h => h ▸ splits_ofText text⟩

/-! ### Values -/

lemma join_source (h : Splits text pieces) : (pieces.map (·.source.toList)).flatten = text := by
  induction h with
  | nil => rfl
  | char hc h ih =>
    rw [map_cons, flatten_cons, ih]
    simp [source]
  | placeholder hnames hend h ih => simp [ih]

def isPlaceholder : Piece → Bool
  | char _ => false
  | placeholder .. => true

def nest (leaf : String) : List String → Json
  | [] => .str leaf
  | key :: path => .obj [(key, nest leaf path)]

lemma property?_nest (leaf : String) : ∀ path : List String, (nest leaf path).property? path = some (.str leaf)
  | [] => rfl
  | key :: path => by simp [nest, Json.property?, Table.get?, property?_nest leaf path]

end Piece

namespace Template

open Piece

lemma toList_render (template : String) (b : Table Json) : (render template b).text.toList =
    ((ofText template.toList).map fun p => (p.fill b).toList).flatten := by
  simp [render, String.toList_join, flatMap_def, Function.comp_def]

/-- With nothing bound the template stays as it is, and with a long text at the end of the path of a placeholder
it grows. -/
lemma exists_render_ne {template name : String} (h : placeholder name path ∈ ofText template.toList) :
    ∃ b b' : Table Json, (∀ n ≠ name, b.get? n = b'.get? n) ∧
    (render template b).text ≠ (render template b').text := by
  let leaf := String.ofList (List.replicate (template.toList.length + 1) 'x')
  refine ⟨[], [(name, nest leaf path)], fun n hn => by simp [Table.get?, hn.symm], fun heq => ?_⟩
  have hsame : (render template []).text.toList = template.toList := by
    have hsource : ∀ p : Piece, p.fill [] = p.source := fun p => by cases p <;> rfl
    simpa [toList_render, hsource] using join_source (splits_ofText template.toList)
  have hfill : (placeholder name path).fill [(name, nest leaf path)] = leaf := by
    simp [fill, value?, Table.get?, property?_nest, Json.plainText]
  have hleaf : leaf.toList ∈ (ofText template.toList).map fun p => (p.fill [(name, nest leaf path)]).toList :=
    mem_map.2 ⟨_, h, by rw [hfill]⟩
  have hlength := (sublist_flatten_of_mem hleaf).length_le
  rw [← toList_render, ← heq, hsame] at hlength
  simp only [leaf, String.toList_ofList, length_replicate] at hlength
  omega

/-- A template depends on just the names that it mentions. It splits in one way into characters and
placeholders, each of which has the text of its value in the rendered text or stays as it is. -/
theorem mentions_eq_false_iff (template name : String) :
    (mentions template name = false ↔ ∀ b b' : Table Json, (∀ n ≠ name, b.get? n = b'.get? n) →
      (render template b).text = (render template b').text) ∧
    ∃ pieces, (∀ other, Splits template.toList other ↔ other = pieces) ∧
      ∀ b, (render template b).text = String.join (pieces.map (·.fill b)) ∧
        (render template b).substitutions + (render template b).unresolved.length =
          (pieces.filter (·.isPlaceholder)).length := by
  refine ⟨⟨fun h b b' hagree => ?_, fun h => ?_⟩, ofText template.toList, fun _ => splits_iff, fun b => ⟨rfl, ?_⟩⟩
  · refine congrArg String.join (map_congr_left fun p hp => ?_)
    cases p with
    | char c => rfl
    | placeholder n path =>
      have hn : n ≠ name := by simpa using any_eq_false.1 h _ hp
      simp [fill, value?, hagree n hn]
  · by_contra hmentions
    rw [Bool.not_eq_false, mentions, any_eq_true] at hmentions
    obtain ⟨p, hp, hname⟩ := hmentions
    cases p with
    | char c => cases hname
    | placeholder n path =>
      obtain rfl := of_decide_eq_true hname
      obtain ⟨b, b', hagree, hne⟩ := exists_render_ne hp
      exact hne (h b b' hagree)
  · simp only [render, length_map]
    induction ofText template.toList with
    | nil => rfl
    | cons p pieces ih =>
      cases p with
      | char c => exact ih
      | placeholder n path =>
        have hopen : isOpen b (placeholder n path) = ((placeholder n path).value? b).isNone := rfl
        have hplace : (placeholder n path).isPlaceholder = true := rfl
        cases hvalue : (placeholder n path).value? b <;> simp [hopen, hplace, hvalue] <;> omega

end Template

end Workflow
