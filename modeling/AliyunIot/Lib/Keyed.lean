import Mathlib.Data.List.Nodup

/-!
# Lists of elements with distinct keys

`lookup key n l` is the element of `l` with key `n`. What an update of a list
with distinct keys does is said by what it does to every lookup: an element is
added, replaced or removed, or every element is passed through a function that
keeps its key. Keys that are given out in order are `Numbered`.
-/

namespace AliyunIot.Lib

variable {α ε ι : Type}

def lookup [DecidableEq ι] (key : α → ι) (n : ι) (l : List α) : Option α :=
  l.find? fun x => key x = n

def DistinctKeys (key : α → ι) (l : List α) : Prop := (l.map key).Nodup

section
variable {key : α → ι} {n : ι} {l as bs : List α} {x : α}

theorem distinctKeys_cons :
    DistinctKeys key (x :: l) ↔ (∀ y ∈ l, key y ≠ key x) ∧ DistinctKeys key l := by
  unfold DistinctKeys
  rw [List.map_cons, List.nodup_cons, List.mem_map]
  refine and_congr_left fun _ => ⟨fun h y hy he => h ⟨y, hy, he⟩, ?_⟩
  rintro h ⟨y, hy, he⟩
  exact h y hy he

theorem distinctKeys_split (hd : DistinctKeys key (as ++ x :: bs)) :
    ∀ y ∈ as ++ bs, key y ≠ key x := by
  unfold DistinctKeys at hd
  rw [List.map_append, List.map_cons, List.nodup_middle, List.nodup_cons, ← List.map_append] at hd
  exact fun y hy h => hd.1 (h ▸ List.mem_map_of_mem hy)

theorem distinctKeys_concat (hd : DistinctKeys key l) (hx : ∀ y ∈ l, key y ≠ key x) :
    DistinctKeys key (l ++ [x]) := by
  unfold DistinctKeys at *
  rw [List.map_append]
  refine List.Nodup.append hd (List.nodup_singleton _) fun k hk hkx => ?_
  obtain ⟨y, hy, rfl⟩ := List.mem_map.mp hk
  exact hx y hy (List.mem_singleton.mp hkx)

theorem distinctKeys_sublist (h : as.Sublist l) (hd : DistinctKeys key l) : DistinctKeys key as :=
  List.Nodup.sublist (h.map key) hd

theorem filter_mem_of_sublist [DecidableEq α] (h : as.Sublist l) (hd : l.Nodup) :
    (l.filter fun y => decide (y ∈ as)) = as := by
  induction h with
  | slnil => rfl
  | @cons as l y h ih =>
    obtain ⟨hy, hd⟩ := List.nodup_cons.mp hd
    rw [List.filter_cons_of_neg, ih hd]
    rw [decide_eq_true_eq]
    exact fun hmem => hy (h.subset hmem)
  | @cons_cons as l y h ih =>
    obtain ⟨hy, hd⟩ := List.nodup_cons.mp hd
    rw [List.filter_cons, decide_eq_true List.mem_cons_self, if_pos rfl]
    refine congrArg (y :: ·) ((List.filter_congr fun z hz => ?_).trans (ih hd))
    have hne : z ≠ y := fun h => hy (h ▸ hz)
    rw [decide_eq_decide, List.mem_cons, or_iff_right hne]

variable {y : α}

theorem distinctKeys_replace (hy : key y = key x) (hd : DistinctKeys key (as ++ x :: bs)) :
    DistinctKeys key (as ++ y :: bs) := by
  unfold DistinctKeys at *
  rw [List.map_append, List.map_cons] at *
  rwa [hy]

theorem distinctKeys_filterMap {f : α → Option α} (hf : ∀ x y, f x = some y → key y = key x)
    (hd : DistinctKeys key l) : DistinctKeys key (l.filterMap f) := by
  induction l with
  | nil => exact hd
  | cons x l ih =>
    obtain ⟨hx, hd⟩ := distinctKeys_cons.mp hd
    rw [List.filterMap_cons]
    cases h : f x with
    | none => exact ih hd
    | some y =>
      refine distinctKeys_cons.mpr ⟨fun z hz => ?_, ih hd⟩
      obtain ⟨w, hw, hwz⟩ := List.mem_filterMap.mp hz
      rw [hf w z hwz, hf x y h]
      exact hx w hw

variable [DecidableEq ι]

theorem lookup_cons : lookup key n (x :: l) = if key x = n then some x else lookup key n l := by
  unfold lookup
  rw [List.find?_cons]
  split
  · next h => rw [if_pos (of_decide_eq_true h)]
  · next h => rw [if_neg (of_decide_eq_false h)]

theorem lookup_eq_none_iff : lookup key n l = none ↔ ∀ x ∈ l, key x ≠ n := by
  unfold lookup
  rw [List.find?_eq_none]
  simp only [decide_eq_true_eq, ne_eq]

theorem lookup_mem (h : lookup key n l = some x) : x ∈ l := List.mem_of_find?_eq_some h

theorem lookup_key (h : lookup key n l = some x) : key x = n :=
  of_decide_eq_true (List.find?_some (p := fun x => decide (key x = n)) h)

theorem lookup_of_mem (hd : DistinctKeys key l) (hx : x ∈ l) : lookup key (key x) l = some x := by
  induction l with
  | nil => cases hx
  | cons y l ih =>
    obtain ⟨hy, hd⟩ := distinctKeys_cons.mp hd
    rw [lookup_cons]
    rcases List.mem_cons.mp hx with rfl | hx
    · rw [if_pos rfl]
    · rw [if_neg (hy x hx).symm, ih hd hx]

/-! ## Updates -/

theorem lookup_concat :
    lookup key n (l ++ [x]) = (lookup key n l).or (if key x = n then some x else none) := by
  unfold lookup
  rw [List.find?_append, List.find?_singleton]
  simp only [decide_eq_true_eq]

theorem lookup_filterMap {f : α → Option α} (hf : ∀ x y, f x = some y → key y = key x)
    (hd : DistinctKeys key l) : lookup key n (l.filterMap f) = (lookup key n l).bind f := by
  induction l with
  | nil => rfl
  | cons x l ih =>
    obtain ⟨hx, hd⟩ := distinctKeys_cons.mp hd
    rw [lookup_cons, List.filterMap_cons]
    by_cases hn : key x = n
    · rw [if_pos hn, Option.bind_some]
      have hnone : lookup key n l = none := lookup_eq_none_iff.mpr fun y hy => hn ▸ hx y hy
      cases h : f x with
      | none => rw [ih hd, hnone, Option.bind_none]
      | some y =>
        rw [lookup_cons, if_pos ((hf x y h).trans hn)]
    · rw [if_neg hn]
      cases h : f x with
      | none => exact ih hd
      | some y =>
        rw [lookup_cons, if_neg (hf x y h ▸ hn), ih hd]

theorem splice_keeps {o : Option α} (ho : ∀ y ∈ o, key y = key x) (z y : α)
    (h : (if key z = key x then o else some z) = some y) : key y = key z := by
  split at h
  · next hz => rw [hz, ho y h]
  · cases h
    rfl

theorem splice_eq_filterMap (o : Option α) (hd : DistinctKeys key (as ++ x :: bs)) :
    as ++ (o.toList ++ bs) =
      (as ++ x :: bs).filterMap fun z => if key z = key x then o else some z := by
  have hne := distinctKeys_split hd
  have hother (l : List α) (h : ∀ z ∈ l, key z ≠ key x) :
      (l.filterMap fun z => if key z = key x then o else some z) = l := by
    rw [List.filterMap_congr fun z hz => if_neg (h z hz), List.filterMap_some]
  rw [List.filterMap_append, List.filterMap_cons, if_pos rfl,
    hother as fun z hz => hne z (List.mem_append_left _ hz),
    hother bs fun z hz => hne z (List.mem_append_right _ hz)]
  cases o <;> rfl

theorem lookup_splice {o : Option α} (ho : ∀ y ∈ o, key y = key x)
    (hd : DistinctKeys key (as ++ x :: bs)) :
    lookup key n (as ++ (o.toList ++ bs)) =
      if key x = n then o else lookup key n (as ++ x :: bs) := by
  rw [splice_eq_filterMap o hd, lookup_filterMap (splice_keeps ho) hd]
  by_cases hn : key x = n
  · have hx : lookup key n (as ++ x :: bs) = some x :=
      hn ▸ lookup_of_mem hd (List.mem_append_right _ List.mem_cons_self)
    rw [if_pos hn, hx, Option.bind_some, if_pos rfl]
  · rw [if_neg hn]
    cases h : lookup key n (as ++ x :: bs) with
    | none => rfl
    | some z => rw [Option.bind_some, if_neg ((lookup_key h).trans_ne (Ne.symm hn))]

theorem filter_flatMap_about {emit : α → List ε} {about : ε → Option ι}
    (he : ∀ x, ∀ e ∈ emit x, about e = some (key x)) (hd : DistinctKeys key l) :
    ((l.flatMap emit).filter fun e => about e = some n) = ((lookup key n l).map emit).getD [] := by
  induction l with
  | nil => rfl
  | cons x l ih =>
    obtain ⟨hx, hd⟩ := distinctKeys_cons.mp hd
    rw [List.flatMap_cons, List.filter_append, ih hd, lookup_cons]
    by_cases hn : key x = n
    · have hnone : lookup key n l = none := lookup_eq_none_iff.mpr fun y hy => hn ▸ hx y hy
      rw [if_pos hn, hnone, Option.map_none, Option.getD_none, List.append_nil, Option.map_some,
        Option.getD_some, List.filter_eq_self]
      intro e hemit
      rw [he x e hemit, hn]
      exact decide_eq_true rfl
    · rw [if_neg hn, List.filter_eq_nil_iff.mpr, List.nil_append]
      intro e hemit
      rw [he x e hemit, decide_eq_true_eq, Option.some_inj]
      exact hn

/-! ## Places -/

/-- How many elements are ahead of the one with key `n`. -/
def ahead (key : α → ι) (n : ι) (l : List α) : Nat := l.findIdx fun x => key x = n

theorem ahead_lt (h : lookup key n l = some y) : ahead key n l < l.length :=
  List.findIdx_lt_length.mpr ⟨y, lookup_mem h, decide_eq_true (lookup_key h)⟩

end

/-! ## Keys given out in order -/

/-- The keys are distinct and below the next one to be given out. -/
structure Numbered (key : α → Nat) (next : Nat) (l : List α) : Prop where
  distinct : DistinctKeys key l
  below : ∀ x ∈ l, key x < next

namespace Numbered
variable {key : α → Nat} {next : Nat} {l as bs : List α} {x : α}

theorem nil : Numbered key next [] := ⟨List.nodup_nil, fun x hx => by cases hx⟩

theorem concat (h : Numbered key next l) (hx : key x = next) :
    Numbered key (next + 1) (l ++ [x]) := by
  refine ⟨distinctKeys_concat h.distinct fun y hy => ?_, fun y hy => ?_⟩
  · exact hx ▸ Nat.ne_of_lt (h.below y hy)
  · rcases List.mem_append.mp hy with hy | hy
    · exact Nat.lt_succ_of_lt (h.below y hy)
    · rw [List.mem_singleton.mp hy, hx]
      exact Nat.lt_succ_self next

theorem filterMap (h : Numbered key next l) {f : α → Option α}
    (hf : ∀ x y, f x = some y → key y = key x) : Numbered key next (l.filterMap f) := by
  refine ⟨distinctKeys_filterMap hf h.distinct, fun y hy => ?_⟩
  obtain ⟨x, hx, hxy⟩ := List.mem_filterMap.mp hy
  rw [hf x y hxy]
  exact h.below x hx

theorem splice (h : Numbered key next (as ++ x :: bs)) {o : Option α}
    (ho : ∀ y ∈ o, key y = key x) : Numbered key next (as ++ (o.toList ++ bs)) := by
  rw [splice_eq_filterMap o h.distinct]
  exact h.filterMap (splice_keeps ho)

end Numbered

end AliyunIot.Lib
