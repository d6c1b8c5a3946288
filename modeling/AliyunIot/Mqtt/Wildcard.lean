import AliyunIot.Mqtt.Topic

/-!
# Wildcard matching against the rule on levels

`iotx_mc_is_topic_matched` moves two pointers over filter and name; the rule of MQTT 3.1.1
compares the two level by level. `+` and `#` consume at least one character before a separator
is looked at, so the matcher finds the matches in which every wildcard has a non-empty level in
front of it, and no others.
-/

namespace AliyunIot.Mqtt

abbrev Level := List UInt8

def levels (topic : List UInt8) : List Level := topic.splitOn chSlash

/-- The wildcards stand alone in their levels, and `#` is the last level only. -/
structure IsFilter (filter : List Level) : Prop where
  plusAlone : ∀ l ∈ filter, chPlus ∈ l → l = [chPlus]
  hashAlone : ∀ l ∈ filter, chHash ∈ l → l = [chHash]
  hashLast : ∀ l ∈ filter.dropLast, l ≠ [chHash]

/-- The rule of MQTT 3.1.1: `#` stands for its parent level and everything below. -/
inductive Matches : List Level → List Level → Prop where
  | done : Matches [] []
  | hash (names : List Level) : Matches [[chHash]] names
  | plus (n : Level) {filter names : List Level} : Matches filter names →
      Matches ([chPlus] :: filter) (n :: names)
  | same (l : Level) {filter names : List Level} : Matches filter names →
      Matches (l :: filter) (l :: names)

def IsWild (l : Level) : Prop := l = [chPlus] ∨ l = [chHash]

/-- Wherever the filter has a wildcard, the name has a level and it is not empty. -/
def Filled (filter names : List Level) : Prop :=
  ∀ (i : Nat) (l : Level), filter[i]? = some l → IsWild l → ∃ n, names[i]? = some n ∧ n ≠ []

/-! ## Levels -/

@[simp] theorem levels_nil : levels [] = [[]] := rfl

theorem levels_ne_nil (s : List UInt8) : levels s ≠ [] := List.splitOn_ne_nil _ _

theorem levels_slash (s : List UInt8) : levels (chSlash :: s) = [] :: levels s := by
  rw [levels, List.splitOn_cons_eq_if_modifyHead, if_pos (beq_self_eq_true _), levels]

theorem levels_cons {b : UInt8} {s : List UInt8} {l : Level} {ls : List Level} (hb : b ≠ chSlash)
    (h : levels s = l :: ls) : levels (b :: s) = (b :: l) :: ls := by
  rw [levels] at h ⊢
  rw [List.splitOn_cons_eq_if_modifyHead, if_neg (by simpa using hb), h, List.modifyHead_cons]

theorem exists_levels (s : List UInt8) : ∃ l ls, levels s = l :: ls :=
  List.exists_cons_of_ne_nil (levels_ne_nil s)

theorem levels_dropWhile {s : List UInt8} {l : Level} {ls : List Level} (h : levels s = l :: ls) :
    levels (s.dropWhile (· ≠ chSlash)) = [] :: ls := by
  induction s generalizing l with
  | nil =>
    rw [levels_nil] at h
    obtain ⟨_, rfl⟩ := List.cons.inj h
    rfl
  | cons b s ih =>
    by_cases hb : b = chSlash
    · subst hb
      rw [levels_slash] at h
      obtain ⟨_, rfl⟩ := List.cons.inj h
      rw [List.dropWhile_cons_of_neg (by simp), levels_slash]
    · obtain ⟨m, ms, hs⟩ := exists_levels s
      rw [levels_cons hb hs] at h
      obtain ⟨_, rfl⟩ := List.cons.inj h
      rw [List.dropWhile_cons_of_pos (by simpa using hb)]
      exact ih hs

/-! ## The rule, level by level -/

section Rule

variable {c b : UInt8} {f n : Level} {filter names : List Level}

theorem IsFilter.tail (h : IsFilter (f :: filter)) (hne : filter ≠ []) : IsFilter filter := by
  refine ⟨fun l hl => h.plusAlone l (.tail f hl), fun l hl => h.hashAlone l (.tail f hl), ?_⟩
  intro l hl
  apply h.hashLast
  rw [List.dropLast_cons_of_ne_nil hne]
  exact .tail f hl

theorem IsFilter.replace (hp : chPlus ∉ n) (hh : chHash ∉ n) (h : IsFilter (f :: filter)) :
    IsFilter (n :: filter) := by
  refine ⟨?_, ?_, ?_⟩
  · intro l hl hmem
    rcases List.mem_cons.mp hl with rfl | hl
    · exact absurd hmem hp
    · exact h.plusAlone l (.tail f hl) hmem
  · intro l hl hmem
    rcases List.mem_cons.mp hl with rfl | hl
    · exact absurd hmem hh
    · exact h.hashAlone l (.tail f hl) hmem
  · intro l hl
    cases filter with
    | nil => simp at hl
    | cons g filter =>
      rw [List.dropLast_cons_of_ne_nil (by simp)] at hl
      rcases List.mem_cons.mp hl with rfl | hl
      · rintro rfl
        exact hh List.mem_cons_self
      · apply h.hashLast
        rw [List.dropLast_cons_of_ne_nil (by simp)]
        exact .tail f hl

theorem IsFilter.literal (hp : c ≠ chPlus) (hh : c ≠ chHash) (h : IsFilter ((c :: f) :: filter)) :
    chPlus ∉ f ∧ chHash ∉ f := by
  constructor
  · intro hmem
    have := h.plusAlone (c :: f) List.mem_cons_self (.tail c hmem)
    exact hp (List.cons.inj this).1
  · intro hmem
    have := h.hashAlone (c :: f) List.mem_cons_self (.tail c hmem)
    exact hh (List.cons.inj this).1

theorem IsFilter.of_plus (h : IsFilter ((chPlus :: f) :: filter)) : f = [] :=
  (List.cons.inj (h.plusAlone (chPlus :: f) List.mem_cons_self List.mem_cons_self)).2

theorem IsFilter.of_hash (h : IsFilter ((chHash :: f) :: filter)) : f = [] ∧ filter = [] := by
  have hf := (List.cons.inj (h.hashAlone (chHash :: f) List.mem_cons_self List.mem_cons_self)).2
  refine ⟨hf, ?_⟩
  by_contra hne
  apply h.hashLast (chHash :: f)
  · rw [List.dropLast_cons_of_ne_nil hne]
    exact List.mem_cons_self
  · rw [hf]

theorem filled_cons : Filled (f :: filter) names ↔
    (IsWild f → ∃ n, names.head? = some n ∧ n ≠ []) ∧ Filled filter names.tail := by
  constructor
  · intro h
    refine ⟨fun hf => ?_, fun i l hl hw => ?_⟩
    · rw [List.head?_eq_getElem?]
      exact h 0 f rfl hf
    · rw [List.getElem?_tail]
      exact h (i + 1) l hl hw
  · rintro ⟨h0, hs⟩ i l hl hw
    cases i with
    | zero =>
      obtain rfl := Option.some.inj hl
      rw [← List.head?_eq_getElem?]
      exact h0 hw
    | succ i =>
      rw [← List.getElem?_tail]
      exact hs i l hl hw

theorem filled_nil : Filled [] names := fun _ _ h => by simp at h

theorem matches_plus : Matches ([chPlus] :: filter) (n :: names) ↔ Matches filter names := by
  refine ⟨fun h => ?_, .plus n⟩
  cases h with
  | plus _ h => exact h
  | same _ h => exact h

theorem matches_literal (hw : ¬ IsWild f) :
    Matches (f :: filter) (n :: names) ↔ f = n ∧ Matches filter names := by
  constructor
  · intro h
    cases h with
    | hash => exact absurd (.inr rfl) hw
    | plus => exact absurd (.inl rfl) hw
    | same _ h => exact ⟨rfl, h⟩
  · rintro ⟨rfl, h⟩
    exact .same f h

end Rule

/-! ## The matcher -/

def Accepts (filter names : List Level) : Prop := Matches filter names ∧ Filled filter names

section Accepts

variable {c b : UInt8} {f n : Level} {filter names : List Level}

theorem not_isWild_nil : ¬ IsWild [] := by simp [IsWild]

theorem accepts_literal (hw : ¬ IsWild f) :
    Accepts (f :: filter) (n :: names) ↔ f = n ∧ Accepts filter names := by
  rw [Accepts, Accepts, matches_literal hw, filled_cons]
  simp [hw, and_assoc]

theorem accepts_plus : Accepts ([chPlus] :: filter) (n :: names) ↔
    n ≠ [] ∧ Accepts filter names := by
  rw [Accepts, Accepts, matches_plus, filled_cons]
  simp [IsWild, and_left_comm]

theorem accepts_hash : Accepts [[chHash]] (n :: names) ↔ n ≠ [] := by
  rw [Accepts, filled_cons]
  simp [IsWild, Matches.hash, filled_nil]

theorem not_accepts_nil : ¬ Accepts (f :: filter) [] := by
  rintro ⟨h, hfill⟩
  cases h with
  | hash =>
    obtain ⟨n, hn, _⟩ := hfill 0 _ rfl (.inr rfl)
    simp at hn

theorem not_isWild_of_not_mem (hp : chPlus ∉ f) (hh : chHash ∉ f) : ¬ IsWild f := by
  rintro (rfl | rfl)
  · exact hp List.mem_cons_self
  · exact hh List.mem_cons_self

theorem not_accepts_empty (h : IsFilter ((c :: f) :: filter)) :
    ¬ Accepts ((c :: f) :: filter) ([] :: names) := by
  by_cases hp : c = chPlus
  · subst hp
    rw [h.of_plus, accepts_plus]
    simp
  · by_cases hh : c = chHash
    · subst hh
      obtain ⟨rfl, rfl⟩ := h.of_hash
      rw [accepts_hash]
      simp
    · rw [accepts_literal (by simp [IsWild, hp, hh])]
      simp

theorem accepts_inLevel (hp : c ≠ chPlus) (hh : c ≠ chHash) (h : IsFilter ((c :: f) :: filter)) :
    Accepts ((c :: f) :: filter) ((b :: n) :: names) ↔
      c = b ∧ Accepts (f :: filter) (n :: names) := by
  have hlit := h.literal hp hh
  rw [accepts_literal (by simp [IsWild, hp, hh]),
    accepts_literal (not_isWild_of_not_mem hlit.1 hlit.2), List.cons.injEq, and_assoc]

theorem accepts_done : Accepts [[]] [[]] := by
  rw [accepts_literal not_isWild_nil]
  exact ⟨rfl, .done, filled_nil⟩

end Accepts

theorem matched_iff_accepts (filter name : List UInt8) (hf : IsFilter (levels filter)) :
    iotxMcIsTopicMatched filter name = true ↔ Accepts (levels filter) (levels name) := by
  induction filter generalizing name with
  | nil =>
    rw [iotxMcIsTopicMatched, List.isEmpty_iff, levels_nil]
    cases name with
    | nil => simp [accepts_done]
    | cons b name =>
      obtain ⟨n, ns, hn⟩ := exists_levels name
      have hnone : ¬ Accepts [] (n :: ns) := fun h => by cases h.1
      by_cases hb : b = chSlash
      · subst hb
        rw [levels_slash, accepts_literal not_isWild_nil, hn]
        simp [hnone]
      · rw [levels_cons hb hn, accepts_literal not_isWild_nil]
        simp
  | cons c filter ih =>
    obtain ⟨f, fs, hfs⟩ := exists_levels filter
    have hne : levels filter ≠ [] := levels_ne_nil filter
    by_cases hc : c = chSlash
    · subst hc
      rw [levels_slash] at hf ⊢
      cases name with
      | nil =>
        rw [iotxMcIsTopicMatched, levels_nil, accepts_literal not_isWild_nil, hfs]
        simp [not_accepts_nil]
      | cons b name =>
        obtain ⟨n, ns, hn⟩ := exists_levels name
        by_cases hb : b = chSlash
        · subst hb
          rw [iotxMcIsTopicMatched, levels_slash, accepts_literal not_isWild_nil]
          simpa [chSlash, chPlus, chHash] using ih name (hf.tail hne)
        · rw [iotxMcIsTopicMatched, levels_cons hb hn, accepts_literal not_isWild_nil]
          simp [chSlash, chPlus, chHash, Ne.symm hb]
    · rw [levels_cons hc hfs] at hf ⊢
      cases name with
      | nil => simp [iotxMcIsTopicMatched, not_accepts_empty hf]
      | cons b name =>
        obtain ⟨n, ns, hn⟩ := exists_levels name
        by_cases hb : b = chSlash
        · subst hb
          rw [iotxMcIsTopicMatched, levels_slash, if_pos ⟨rfl, hc⟩]
          simp [not_accepts_empty hf]
        · rw [iotxMcIsTopicMatched, levels_cons hb hn, if_neg (by simp [hb])]
          by_cases hp : c = chPlus
          · -- `+` runs to the end of the level; what follows begins at a separator or the end
            subst hp
            obtain rfl := hf.of_plus
            have hrest : IsFilter (levels filter) := by
              rw [hfs]
              exact hf.replace List.not_mem_nil List.not_mem_nil
            have := ih (name.dropWhile (· ≠ chSlash)) hrest
            rw [hfs, levels_dropWhile hn, accepts_literal not_isWild_nil] at this
            rw [accepts_plus]
            simpa [chSlash, chPlus, chHash] using this
          · by_cases hh : c = chHash
            · subst hh
              obtain ⟨rfl, rfl⟩ := hf.of_hash
              have hrest : IsFilter (levels filter) := by
                rw [hfs]
                exact hf.replace List.not_mem_nil List.not_mem_nil
              have := (ih [] hrest).mpr (by rw [hfs]; exact accepts_done)
              simp [accepts_hash, chHash, chPlus, this]
            · have hlit := hf.literal hp hh
              have hrest : IsFilter (levels filter) := by
                rw [hfs]
                exact hf.replace hlit.1 hlit.2
              rw [accepts_inLevel hp hh hf, ← hfs, ← hn, ← ih name hrest]
              by_cases hcb : c = b
              · subst hcb
                simp [hp, hh]
              · simp [hcb, hp, hh]

/-! ## Agreement with the rule -/

/-- The matcher agrees with the rule unless the name matches with a wildcard that stands at no
level of it or at an empty one: the parent level of `#`, or two separators in a row. -/
theorem matched_agrees_iff (filter name : List UInt8) (hf : IsFilter (levels filter)) :
    (iotxMcIsTopicMatched filter name = true ↔ Matches (levels filter) (levels name)) ↔
      (Matches (levels filter) (levels name) → Filled (levels filter) (levels name)) := by
  rw [matched_iff_accepts filter name hf, Accepts]
  tauto

/-- `/+/b` and `/a/b`. -/
theorem matched_agrees_plus :
    iotxMcIsTopicMatched [0x2F, 0x2B, 0x2F, 0x62] [0x2F, 0x61, 0x2F, 0x62] = true ↔
      Matches (levels [0x2F, 0x2B, 0x2F, 0x62]) (levels [0x2F, 0x61, 0x2F, 0x62]) := by
  apply (matched_agrees_iff _ _ ⟨by decide, by decide, by decide⟩).mpr
  intro _
  apply filled_cons.mpr
  refine ⟨by simp [IsWild], filled_cons.mpr ⟨fun _ => ⟨[0x61], by decide⟩, ?_⟩⟩
  exact filled_cons.mpr ⟨by simp [IsWild, chPlus, chHash], filled_nil⟩

/-- `/a/#` does not match its parent level `/a`. -/
theorem parent_not_matched :
    IsFilter (levels [0x2F, 0x61, 0x2F, 0x23]) ∧
    Matches (levels [0x2F, 0x61, 0x2F, 0x23]) (levels [0x2F, 0x61]) ∧
    iotxMcIsTopicMatched [0x2F, 0x61, 0x2F, 0x23] [0x2F, 0x61] = false := by
  refine ⟨⟨by decide, by decide, by decide⟩, ?_, by decide⟩
  exact .same [] (.same [0x61] (.hash []))

end AliyunIot.Mqtt
