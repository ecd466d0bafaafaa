import Mathlib.Data.List.Basic
import Workflow.Listing.OfProgram
import Workflow.Unit.Assemble

/-!
Source maps of lines. The mappings stand in the order of the lines, so looking a line up finds the last
operation that is not behind it. For an operation this is the operation itself, and the place is that of its
origin.
-/

namespace Workflow

open List

variable {n : Nat} {lines : List Lower.Placed}

/-! ### Numbered lines -/

section

variable {α β : Type} {f : α × Nat → Option β} {key : β → Nat}

lemma filterMap_zipIdx (f : α → Option β) (xs : List α) : xs.zipIdx.filterMap (fun x => f x.1) = xs.filterMap f := by
  conv_rhs => rw [← zipIdx_map_fst 0 xs, filterMap_map]
  rfl

lemma filterMap_zipIdx_split (f : α × Nat → Option β) (xs : List α) (n : Nat) : xs.zipIdx.filterMap f =
      (xs.take n).zipIdx.filterMap f ++ ((xs.drop n).zipIdx n).filterMap f := by
  conv_lhs => rw [← take_append_drop n xs, zipIdx_append, filterMap_append]
  congr 2
  rcases Nat.le_total n xs.length with hn | hn
  · rw [Nat.zero_add, length_take_of_le hn]
  · rw [drop_eq_nil_of_le hn]
    rfl

section

variable (hkey : ∀ {x b}, f x = some b → key b = x.2 + 1)

include hkey

lemma key_le {xs : List α} (hb : b ∈ (xs.take n).zipIdx.filterMap f) : key b ≤ n := by
  obtain ⟨x, hx, heq⟩ := mem_filterMap.1 hb
  have hlt := snd_lt_of_mem_zipIdx hx
  have hlength := length_take_le n xs
  rw [hkey heq]
  omega

lemma lt_key {xs : List α} (hb : b ∈ (xs.zipIdx n).filterMap f) : n < key b := by
  obtain ⟨x, hx, heq⟩ := mem_filterMap.1 hb
  rw [hkey heq]
  exact Nat.lt_succ_of_le (le_snd_of_mem_zipIdx hx)

lemma filter_key (xs : List α) (n : Nat) :
    (xs.zipIdx.filterMap f).filter (key · ≤ n) = (xs.take n).zipIdx.filterMap f := by
  have hfront : ((xs.take n).zipIdx.filterMap f).filter (key · ≤ n) = (xs.take n).zipIdx.filterMap f :=
    filter_eq_self.2 fun b hb => decide_eq_true (key_le hkey hb)
  have hback : (((xs.drop n).zipIdx n).filterMap f).filter (key · ≤ n) = [] :=
    filter_eq_nil_iff.2 fun b hb => by simpa using lt_key hkey hb
  rw [filterMap_zipIdx_split f xs n, filter_append, hfront, hback, append_nil]

lemma takeWhile_key (xs : List α) (n : Nat) :
    (xs.zipIdx.filterMap f).takeWhile (key · ≤ n) = (xs.take n).zipIdx.filterMap f := by
  have hback : (((xs.drop n).zipIdx n).filterMap f).takeWhile (key · ≤ n) = [] := by
    cases hbs : ((xs.drop n).zipIdx n).filterMap f with
    | nil => rfl
    | cons b bs =>
      have hlt : n < key b := lt_key hkey (hbs ▸ mem_cons_self)
      rw [takeWhile_cons_of_neg (by simpa using hlt)]
  rw [filterMap_zipIdx_split f xs n,
    takeWhile_append_of_pos fun b hb => decide_eq_true (key_le hkey hb), hback, append_nil]

end

end

/-! ### Source maps of lines -/

/-- The beginning of a stretch of text, as a place in a file. -/
def Span.placeIn (file : String) (span : Span) : Place := ⟨file, span.line, span.column⟩

namespace Lower.Placed

/-- The place that a line comes from, if it is an operation. -/
def place? (l : Placed) : Option Place := l.origin.map fun (file, span) => span.placeIn file

/-- The operation of a line, and the place it comes from. -/
def op? (l : Placed) : Option (Op × Option Place) :=
  match l.line.content with
  | .op o => some (o, l.place?)
  | .comment _ => none

/-- Operations have an origin, and comments have none. -/
def Marked (l : Placed) : Prop := l.op?.map (·.2) = l.place?.map some

end Lower.Placed

namespace SourceMap

open Lower (Placed)

/-- The mapping of a line with an origin, by its index. -/
def mapping? (sourceFile : String) (l : Placed × Nat) : Option Mapping :=
  l.1.origin.map fun (file, span) => mappingFrom sourceFile file (l.2 + 1) span.line span.column

lemma mappings_ofPlaced (generatedFile sourceFile : String) (lines : List Placed) :
    (ofPlaced generatedFile sourceFile lines).mappings = lines.zipIdx.filterMap (mapping? sourceFile) := rfl

lemma generated_mapping? {sourceFile : String} (h : mapping? sourceFile l = some m) : m.generated = l.2 + 1 := by
  obtain ⟨origin, -, rfl⟩ := Option.map_eq_some_iff.1 h
  rfl

variable (generatedFile sourceFile : String)

lemma increasing_ofPlaced (lines : List Placed) :
    (ofPlaced generatedFile sourceFile lines).mappings.Pairwise (·.generated < ·.generated) := by
  have hindex : lines.zipIdx.Pairwise (·.2 < ·.2) := by
    rw [← pairwise_map, zipIdx_map_snd]
    exact pairwise_lt_range'
  rw [mappings_ofPlaced, pairwise_filterMap]
  refine hindex.imp fun {a b} hlt m hm n hn => ?_
  rw [generated_mapping? hm, generated_mapping? hn]
  exact Nat.succ_lt_succ hlt

lemma lookup_ofPlaced (lines : List Placed) (n : Nat) : (ofPlaced generatedFile sourceFile lines).lookup n =
      ((lines.take n).filterMap Placed.place?).getLast? := by
  have hplace : ∀ l : Placed × Nat, (mapping? sourceFile l).map (fun found =>
      (⟨found.file.getD sourceFile, found.line, found.column⟩ : Place)) = l.1.place? := by
    rintro ⟨⟨line, _ | ⟨file, span⟩⟩, n⟩
    · rfl
    · by_cases hfile : file = sourceFile <;> simp [mapping?, mappingFrom, Placed.place?, Span.placeIn, hfile]
  rw [lookup, mappings_ofPlaced, takeWhile_key generated_mapping?, ← List.getLast?_map, map_filterMap]
  simp only [hplace, ofPlaced, filterMap_zipIdx Placed.place?]

lemma lookup_of_getElem? (hl : lines[n]? = some l) : (ofPlaced generatedFile sourceFile lines).lookup (n + 1) =
      l.place?.or ((ofPlaced generatedFile sourceFile lines).lookup n) := by
  rw [lookup_ofPlaced, lookup_ofPlaced, take_add_one, hl, Option.toList_some, filterMap_append]
  cases hplace : l.place? with
  | none => simp [hplace]
  | some p => simp [hplace]

lemma map_flat_ofPlaced (hmarked : ∀ l ∈ front, l.Marked) : (Listing.ofPlaced front).flat.map (fun f =>
      (f.op, (ofPlaced generatedFile sourceFile (front ++ back)).lookup f.line)) = front.filterMap Placed.op? := by
  rw [Listing.flat, Listing.ofPlaced, zipIdx_map, filterMap_map, map_filterMap, ← filterMap_zipIdx Placed.op?]
  refine filterMap_congr fun ⟨l, n⟩ hl => ?_
  have hget : (front ++ back)[n]? = some l := by
    have hfront := mem_zipIdx_iff_getElem?.1 hl
    rw [List.getElem?_append_left (List.getElem?_eq_some_iff.1 hfront).1, hfront]
  have hl := hmarked l (fst_mem_of_mem_zipIdx hl)
  obtain ⟨⟨depth, o | text⟩, origin⟩ := l
  · cases origin with
    | none => cases hl
    | some origin =>
      exact congrArg (fun place => some (o, place)) (lookup_of_getElem? generatedFile sourceFile hget)
  · rfl

lemma lookup_eq_last (hmarked : ∀ l ∈ lines, l.Marked) (n : Nat) :
    (ofPlaced generatedFile sourceFile lines).lookup n =
      ((Listing.ofPlaced lines).flat.filter (·.line ≤ n)).getLast?.bind fun f =>
        (ofPlaced generatedFile sourceFile lines).lookup f.line := by
  have htake : ∀ l ∈ lines.take n, l.Marked := fun l hl => hmarked l (mem_of_mem_take hl)
  have hfilter : (Listing.ofPlaced lines).flat.filter (·.line ≤ n) = (Listing.ofPlaced (lines.take n)).flat := by
    rw [Listing.flat, filter_key (by rintro ⟨⟨_, _ | _⟩, _⟩ f ⟨⟩; rfl), Listing.ofPlaced, ← map_take]
    rfl
  have hmap := @map_flat_ofPlaced generatedFile sourceFile (lines.take n) (lines.drop n) htake
  rw [take_append_drop] at hmap
  have hplaces := congrArg (List.map Prod.snd) hmap
  rw [map_map, map_filterMap, filterMap_congr htake, ← map_filterMap] at hplaces
  have hlast := congrArg List.getLast? hplaces
  rw [List.getLast?_map, List.getLast?_map] at hlast
  rw [hfilter, lookup_ofPlaced]
  calc ((lines.take n).filterMap Placed.place?).getLast?
    _ = (((lines.take n).filterMap Placed.place?).getLast?.map some).join := by
      cases ((lines.take n).filterMap Placed.place?).getLast? <;> rfl
    _ = _ := by
      rw [← hlast]
      cases (Listing.ofPlaced (lines.take n)).flat.getLast? <;> rfl

lemma lookup_comment (hmarked : ∀ l ∈ lines, l.Marked)
    (h : (Listing.ofPlaced lines)[n]? = some ⟨depth, .comment text⟩) :
    (ofPlaced generatedFile sourceFile lines).lookup (n + 1) =
      ((Listing.ofPlaced lines).flat.filter (·.line ≤ n)).getLast?.bind fun f =>
        (ofPlaced generatedFile sourceFile lines).lookup f.line := by
  rw [Listing.ofPlaced, List.getElem?_map] at h
  obtain ⟨l, hl, hline⟩ := Option.map_eq_some_iff.1 h
  have hplace : l.place? = none := by
    have hl := hmarked l (mem_of_getElem? hl)
    rw [Placed.Marked, Placed.op?, hline] at hl
    exact Option.map_eq_none_iff.1 hl.symm
  rw [lookup_of_getElem? generatedFile sourceFile hl, hplace, Option.none_or,
    lookup_eq_last generatedFile sourceFile hmarked n]

end SourceMap

end Workflow
