import AliyunIot.Dm.Shadow

/-!
# The parts of a key

`segment` takes an index from a part exactly where it ends in the only brackets that it has
(`HasIndex`). `Written` says that this index is a decimal number and stands behind a name.
-/

namespace AliyunIot.Dm.Shadow

open Libc Cjson Format

/-- No bracket. -/
def Unbracketed (s : List UInt8) : Prop := ∀ b ∈ s, b ≠ 91 ∧ b ≠ 93

/-- The part is `pre[txt]`, without other brackets. -/
structure HasIndex (seg pre txt : List UInt8) : Prop where
  eq : seg = pre ++ 91 :: (txt ++ [93])
  unbracketedPre : Unbracketed pre
  unbracketed : Unbracketed txt
  ne : txt ≠ []

/-- Decimal digits, and the number that they give. -/
structure IsIndex (txt : List UInt8) (n : Nat) : Prop where
  ne : txt ≠ []
  digits : ∀ b ∈ txt, isDigit b = true
  value : (leadingNat txt).2 = n

/-- Where the part has an index, it is a plain decimal number that `dm_utils_strarr_index` takes,
behind a name. -/
def Written (seg : List UInt8) : Prop :=
  ∀ pre txt, HasIndex seg pre txt →
    pre ≠ [] ∧ txt.length ≤ 10 ∧ ∃ n : Nat, IsIndex txt n ∧ (n : Int) ≤ intMax

section Scan

variable {key s tail pre txt : List UInt8} {d p u : Nat} {found : Brackets}

theorem scan_append (h : Unbracketed s) (index : Nat) (found : Brackets) :
    scanBrackets key index (s ++ tail) found = scanBrackets key (index + s.length) tail found := by
  induction s generalizing index with
  | nil => rfl
  | cons b s ih =>
    obtain ⟨⟨hpre, hsuf⟩, hs⟩ := List.forall_mem_cons.mp h
    rw [List.cons_append, scanBrackets, if_neg hpre, if_neg hsuf, ih hs, List.length_cons,
      Nat.add_right_comm, Nat.add_assoc]

theorem scan_keeps {index : Nat}
    (h : scanBrackets key index tail ⟨d, some p, some u⟩ = some found) :
    found.pre = some p ∧ found.suf = some u := by
  induction tail generalizing index d with
  | nil =>
    simp only [scanBrackets, Option.some.injEq] at h
    subst h
    exact ⟨rfl, rfl⟩
  | cons b tail ih =>
    rw [scanBrackets] at h
    split at h
    · split at h
      · cases h
      · exact ih h
    · split at h
      · split at h
        · cases h
        · split at h
          · cases h
          · exact ih h
      · exact ih h

theorem scan_open (hpre : Unbracketed pre) (htxt : Unbracketed txt)
    (hkey : key = pre ++ 91 :: (txt ++ tail))
    (h : scanBrackets key (pre.length + 1 + txt.length) tail ⟨1, some pre.length, none⟩ =
      some found) (hsuf : found.suf = some u) (hend : u + 1 = key.length) :
    found.pre = some pre.length ∧ ∃ txt, HasIndex key pre txt := by
  induction tail generalizing txt with
  | nil =>
    simp only [scanBrackets, Option.some.injEq] at h
    subst h
    cases hsuf
  | cons b tail ih =>
    rw [scanBrackets] at h
    split at h
    · simp at h
    · rename_i hopen
      split at h
      · rename_i hclose
        subst hclose
        rw [if_neg (by simp)] at h
        split at h
        · cases h
        · rename_i hlast
          obtain ⟨hp, hu⟩ := scan_keeps h
          rw [hsuf] at hu
          have hlen := congrArg List.length hkey
          simp only [List.length_append, List.length_cons] at hlen
          have htail : tail = [] := by
            apply List.eq_nil_of_length_eq_zero
            have : u = pre.length + 1 + txt.length := by simpa using hu
            omega
          subst htail
          refine ⟨hp, txt, hkey, hpre, htxt, ?_⟩
          rintro rfl
          refine hlast ?_
          rw [hkey]
          simp
      · rename_i hclose
        refine @ih (txt ++ [b]) ?_ (by rw [hkey]; simp) ?_
        · intro c hc
          rcases List.mem_append.mp hc with hc | hc
          · exact htxt c hc
          · rw [List.mem_singleton.mp hc]
            exact ⟨hopen, hclose⟩
        · rw [List.length_append, List.length_singleton, ← Nat.add_assoc]
          exact h

theorem scan_start (hs : Unbracketed s) (hkey : key = s ++ tail)
    (h : scanBrackets key s.length tail ⟨0, none, none⟩ = some found) (hsuf : found.suf = some u)
    (hend : u + 1 = key.length) :
    ∃ pre txt, found.pre = some pre.length ∧ HasIndex key pre txt := by
  induction tail generalizing s with
  | nil =>
    simp only [scanBrackets, Option.some.injEq] at h
    subst h
    cases hsuf
  | cons b tail ih =>
    rw [scanBrackets] at h
    split at h
    · rename_i hopen
      subst hopen
      rw [if_neg (by simp)] at h
      have hnil : Unbracketed [] := fun b hb => absurd hb List.not_mem_nil
      obtain ⟨hp, txt, hindex⟩ := scan_open hs hnil hkey h hsuf hend
      exact ⟨s, txt, hp, hindex⟩
    · rename_i hopen
      split at h
      · simp at h
      · rename_i hclose
        refine ih (s := s ++ [b]) ?_ (by rw [hkey]; simp) ?_
        · intro c hc
          rcases List.mem_append.mp hc with hc | hc
          · exact hs c hc
          · rw [List.mem_singleton.mp hc]
            exact ⟨hopen, hclose⟩
        · rw [List.length_append, List.length_singleton]
          exact h

theorem scan_of_hasIndex (h : HasIndex key pre txt) :
    scanBrackets key 0 key ⟨0, none, none⟩ =
      some ⟨0, some pre.length, some (pre.length + 1 + txt.length)⟩ := by
  obtain ⟨heq, hpre, htxt, hne⟩ := h
  have hlast : key[pre.length + 1 + txt.length - 1]? ≠ some 91 := by
    intro hopen
    obtain ⟨txt', b, rfl⟩ := List.eq_nil_or_concat txt |>.resolve_left hne
    have hb := (htxt b (by simp)).1
    rw [heq] at hopen
    simp only [List.concat_eq_append, List.length_append, List.length_singleton] at hopen
    rw [List.getElem?_append_right (by omega)] at hopen
    have hidx : pre.length + 1 + (txt'.length + 1) - 1 - pre.length = txt'.length + 1 := by omega
    rw [hidx] at hopen
    simp at hopen
    exact hb hopen
  conv => lhs; rw [show scanBrackets key 0 key = scanBrackets key 0 (pre ++ 91 :: (txt ++ [93]))
    from congrArg _ heq]
  rw [scan_append hpre, scanBrackets, if_pos rfl, if_neg (by simp), scan_append htxt, scanBrackets,
    if_neg (by decide), if_pos rfl, if_neg (by simp), Nat.zero_add, if_neg hlast]
  rfl

end Scan

section Segment

variable {seg pre txt : List UInt8}

theorem segment_of_not_hasIndex (h : ∀ pre txt, ¬ HasIndex seg pre txt) :
    segment seg = ⟨seg, 0, 0⟩ := by
  unfold segment
  split
  · rename_i deep pre suf heq
    rw [if_neg]
    intro hend
    obtain ⟨pre', txt, -, hindex⟩ :=
      scan_start (s := []) (fun b hb => absurd hb List.not_mem_nil) (List.nil_append _).symm heq
        rfl hend
    exact h pre' txt hindex
  · rfl

theorem segment_of_hasIndex (h : HasIndex seg pre txt) :
    segment seg =
      if 10 < txt.length then ⟨seg, pre.length, 0⟩ else ⟨pre, pre.length, atoi txt⟩ := by
  have hlen : seg.length = pre.length + 1 + txt.length + 1 := by
    rw [h.eq]
    simp
    omega
  have hcut : pre.length + 1 + txt.length - pre.length - 1 = txt.length := by omega
  have hname : seg.take pre.length = pre := by
    rw [h.eq]
    simp
  have htxt : (seg.drop (pre.length + 1)).take txt.length = txt := by
    rw [h.eq, List.drop_append, List.drop_eq_nil_of_le (by omega)]
    simp
  simp only [segment, scan_of_hasIndex h, hlen, if_pos, hcut, hname, htxt]

theorem HasIndex.unique {pre' txt' : List UInt8} (h : HasIndex seg pre txt)
    (h' : HasIndex seg pre' txt') : pre = pre' ∧ txt = txt' := by
  have hscan := (scan_of_hasIndex h).symm.trans (scan_of_hasIndex h')
  simp only [Option.some.injEq, Brackets.mk.injEq, true_and] at hscan
  have heq := h.eq.symm.trans h'.eq
  obtain ⟨hpre, hrest⟩ := List.append_inj heq hscan.1
  rw [List.cons_inj_right] at hrest
  exact ⟨hpre, List.append_cancel_right hrest⟩

theorem atoi_of_isIndex {n : Nat} (h : IsIndex txt n) : atoi txt = saturate n := by
  rw [atoi_digits h.digits, h.value]

theorem saturate_of_le {n : Nat} (h : (n : Int) ≤ intMax) : saturate n = n := by
  unfold saturate intMin
  unfold intMax at h ⊢
  split
  · omega
  · rw [if_neg (by omega)]

theorem segment_cases (seg : List UInt8) :
    ((∀ pre txt, ¬ HasIndex seg pre txt) ∧ segment seg = ⟨seg, 0, 0⟩) ∨
      ∃ pre txt, HasIndex seg pre txt ∧
        (10 < txt.length ∧ segment seg = ⟨seg, pre.length, 0⟩ ∨
          txt.length ≤ 10 ∧ segment seg = ⟨pre, pre.length, atoi txt⟩) := by
  by_cases h : ∀ pre txt, ¬ HasIndex seg pre txt
  · exact .inl ⟨h, segment_of_not_hasIndex h⟩
  · push Not at h
    obtain ⟨pre, txt, h⟩ := h
    refine .inr ⟨pre, txt, h, ?_⟩
    have hseg := segment_of_hasIndex h
    by_cases hlong : 10 < txt.length
    · exact .inl ⟨hlong, by rw [hseg, if_pos hlong]⟩
    · exact .inr ⟨Nat.not_lt.mp hlong, by rw [hseg, if_neg hlong]⟩

theorem ne_of_eq_append {name : List UInt8} (h : seg = name ++ 91 :: (txt ++ [93])) :
    name ≠ seg := by
  rintro rfl
  have := congrArg List.length h
  simp at this

theorem written_iff_name {name : List UInt8} (hname : name = (segment seg).name)
    (hpartLen : (segment seg).partialInputLen = 0) :
    Written seg ↔ seg = name ∧ ∀ pre txt, ¬ HasIndex name pre txt := by
  obtain ⟨hnot, hseg⟩ | ⟨pre, txt, hindex, hlong⟩ := segment_cases seg
  · rw [hseg] at hname
    subst hname
    exact ⟨fun _ => ⟨rfl, hnot⟩, fun _ pre txt h => absurd h (hnot pre txt)⟩
  · have hpre : pre = [] := by
      obtain ⟨-, hseg⟩ | ⟨-, hseg⟩ := hlong <;> rw [hseg] at hpartLen <;>
        exact List.eq_nil_of_length_eq_zero hpartLen
    constructor
    · intro h
      exact absurd hpre (h pre txt hindex).1
    · rintro ⟨rfl, hnot⟩
      exact absurd hindex (hnot pre txt)

theorem written_iff_index {name : List UInt8} (hname : name = (segment seg).name)
    (hpartLen : (segment seg).partialInputLen ≠ 0) :
    Written seg ↔ name ≠ [] ∧ ∃ txt, seg = name ++ 91 :: (txt ++ [93]) ∧
      IsIndex txt (segment seg).arrayIndex.toNat := by
  obtain ⟨hnot, hseg⟩ | ⟨pre, txt, hindex, hlong⟩ := segment_cases seg
  · rw [hseg] at hpartLen
    exact absurd rfl hpartLen
  · obtain ⟨hten, hseg⟩ | ⟨hten, hseg⟩ := hlong
    · rw [hseg] at hname
      constructor
      · intro h
        exact absurd (h pre txt hindex).2.1 (Nat.not_le.mpr hten)
      · rintro ⟨-, txt', heq, -⟩
        exact absurd hname (ne_of_eq_append heq)
    · rw [hseg] at hname
      subst hname
      have harray : (segment seg).arrayIndex = atoi txt := by rw [hseg]
      rw [harray]
      constructor
      · intro h
        obtain ⟨hne, -, n, hn, hle⟩ := h name txt hindex
        refine ⟨hne, txt, hindex.eq, ?_⟩
        rw [atoi_of_isIndex hn, saturate_of_le hle]
        exact hn
      · rintro ⟨hne, txt', heq, hn⟩
        have htxt : txt' = txt := by
          have := heq.symm.trans hindex.eq
          rw [List.append_cancel_left_eq, List.cons_inj_right] at this
          exact List.append_cancel_right this
        subst htxt
        intro pre' txt'' h
        obtain ⟨rfl, rfl⟩ := hindex.unique h
        refine ⟨hne, hten, (atoi txt').toNat, hn, ?_⟩
        have hmax : atoi txt' ≤ intMax := by
          rw [atoi_of_isIndex hn]
          exact (isInt_saturate _).2
        unfold intMax at hmax ⊢
        omega

end Segment

end AliyunIot.Dm.Shadow
