import AliyunIot.Mqtt.Wildcard

/-!
# What topic validation accepts

`iotx_mc_check_topic` checks the fields `infra_strtok` hands out. These are the non-empty levels
of the topic, but for a last level of one byte directly behind another field: what is left of the
text is then no longer than the delimiter, and the tokens end.
-/

namespace AliyunIot.Mqtt

abbrev isPrintable (b : UInt8) : Prop := 32 ≤ b ∧ b < 127

/-! ## The fields handed out -/

/-- `infra_strtok`, called at `pos` until it has no more, hands out the fields. -/
inductive HandsOut : List UInt8 → List Level → Prop where
  | done {pos pos' : List UInt8} : infraStrtok pos = (none, pos') → HandsOut pos []
  | item {pos pos' tok : List UInt8} {toks : List Level} :
      infraStrtok pos = (some tok, pos') → HandsOut pos' toks → HandsOut pos (tok :: toks)

/-- The fields among the levels; `behind` says that a field stands directly in front. -/
def handed : Bool → List Level → List Level
  | _, [] => []
  | behind, l :: rest =>
    if l = [] then handed false rest
    else if behind ∧ l.length = 1 ∧ rest = [] then []
    else l :: handed true rest

/-- What is left behind a field whose level is followed by the levels `ls`. -/
def LeftOf (pos : List UInt8) (ls : List Level) : Prop :=
  (ls = [] ∧ pos = []) ∨ levels pos = ls

variable {L : List Level}

theorem handed_of_empty (h : ∀ l ∈ L, l = []) (behind : Bool) : handed behind L = [] := by
  induction L generalizing behind with
  | nil => rfl
  | cons l L ih =>
    rw [handed, if_pos (h l List.mem_cons_self)]
    exact ih (fun m hm => h m (.tail l hm)) false

variable {pos : List UInt8} {l : Level}

theorem loop_inside {tok : List UInt8} {ls : List Level} (htok : tok ≠ [])
    (h : levels pos = l :: ls) :
    ∃ pos', infraStrtokLoop false tok pos = (some (tok ++ l), pos') ∧ LeftOf pos' ls := by
  induction pos generalizing tok l with
  | nil =>
    rw [levels_nil] at h
    obtain ⟨rfl, rfl⟩ := List.cons.inj h
    exact ⟨[], by simp [infraStrtokLoop], .inl ⟨rfl, rfl⟩⟩
  | cons b rest ih =>
    by_cases hb : b = chSlash
    · subst hb
      rw [levels_slash] at h
      obtain ⟨rfl, rfl⟩ := List.cons.inj h
      by_cases hrest : rest = []
      · subst hrest
        exact ⟨[], by simp [infraStrtokLoop], .inr rfl⟩
      · exact ⟨rest, by simp [infraStrtokLoop, hrest, htok], .inr rfl⟩
    · obtain ⟨m, ms, hm⟩ := exists_levels rest
      rw [levels_cons hb hm] at h
      obtain ⟨rfl, rfl⟩ := List.cons.inj h
      obtain ⟨pos', hpos, hleft⟩ := ih (show tok ++ [b] ≠ [] by simp) hm
      refine ⟨pos', ?_, hleft⟩
      rw [infraStrtokLoop, if_pos hb, hpos, List.append_assoc, List.singleton_append]

theorem loop_start (hne : pos ≠ []) :
    ((∀ l ∈ levels pos, l = []) ∧ (infraStrtokLoop true [] pos).1 = none) ∨
    ∃ k l ls pos', levels pos = List.replicate k [] ++ l :: ls ∧ l ≠ [] ∧
      infraStrtokLoop true [] pos = (some l, pos') ∧ LeftOf pos' ls := by
  induction pos with
  | nil => exact absurd rfl hne
  | cons b rest ih =>
    by_cases hb : b = chSlash
    · subst hb
      rw [levels_slash]
      by_cases hrest : rest = []
      · subst hrest
        exact .inl (by simp [infraStrtokLoop])
      · have hloop : infraStrtokLoop true [] (chSlash :: rest) = infraStrtokLoop true [] rest := by
          simp [infraStrtokLoop, hrest]
        rw [hloop]
        rcases ih hrest with ⟨hall, hnone⟩ | ⟨k, l, ls, pos', hlev, hl, hpos, hleft⟩
        · exact .inl ⟨by simpa using hall, hnone⟩
        · refine .inr ⟨k + 1, l, ls, pos', ?_, hl, hpos, hleft⟩
          rw [hlev, List.replicate_succ, List.cons_append]
    · obtain ⟨m, ms, hm⟩ := exists_levels rest
      obtain ⟨pos', hpos, hleft⟩ := loop_inside (show [b] ≠ [] by simp) hm
      refine .inr ⟨0, b :: m, ms, pos', levels_cons hb hm, by simp, ?_, hleft⟩
      rw [infraStrtokLoop, if_pos hb]
      exact hpos

theorem eq_of_levels_single (h : levels pos = [l]) : pos = l := by
  have : [chSlash].intercalate (pos.splitOn chSlash) = pos := List.intercalate_splitOn chSlash
  rw [show pos.splitOn chSlash = [l] from h] at this
  simpa using this.symm

variable {behind : Bool}

theorem handed_replicate {k : Nat} {ls : List Level} (hl : l ≠ [])
    (h : k = 0 → behind = true → ls = [] → l.length ≠ 1) :
    handed behind (List.replicate k [] ++ l :: ls) = l :: handed true ls := by
  induction k generalizing behind with
  | zero =>
    rw [List.replicate_zero, List.nil_append, handed, if_neg hl, if_neg]
    rintro ⟨hb, hlen, hls⟩
    exact h rfl hb hls hlen
  | succ k ih =>
    rw [List.replicate_succ, List.cons_append, handed, if_pos rfl]
    exact ih (fun _ hb => by cases hb)

theorem handed_short (h : pos.length ≤ 1) : handed true (levels pos) = [] := by
  match pos with
  | [] => rfl
  | [b] =>
    by_cases hb : b = chSlash
    · subst hb
      rfl
    · rw [levels_cons hb levels_nil]
      simp [handed]

theorem handsOut_levels (pos : List UInt8) : HandsOut pos (handed true (levels pos)) := by
  induction h : pos.length using Nat.strongRecOn generalizing pos with
  | _ n ih =>
    by_cases hlen : pos.length ≤ 1
    · rw [handed_short hlen]
      exact .done (if_pos hlen)
    · have hne : pos ≠ [] := by rintro rfl; exact hlen (Nat.zero_le 1)
      have hcall : infraStrtok pos = infraStrtokLoop true [] pos := if_neg hlen
      rcases loop_start hne with ⟨hall, hnone⟩ | ⟨k, l, ls, pos', hlev, hl, hpos, hleft⟩
      · rw [handed_of_empty hall]
        exact .done (hcall.trans (Prod.ext hnone rfl))
      · -- the first field of a text longer than one byte is not a single byte at its end
        have hfirst : k = 0 → true = true → ls = [] → l.length ≠ 1 := by
          rintro rfl _ rfl hl1
          rw [eq_of_levels_single hlev] at hlen
          omega
        rw [hlev, handed_replicate hl hfirst]
        refine .item (hcall.trans hpos) ?_
        have hlt := infraStrtok_lt (hcall.trans hpos)
        rcases hleft with ⟨rfl, rfl⟩ | rfl
        · exact .done (show infraStrtok [] = (none, []) from rfl)
        · exact ih _ (h ▸ hlt) pos' rfl

/-! ## The checks on them -/

/-- The bytes `iotx_mc_check_rule` lets pass in an item of the length `len`. -/
def ByteOk (type : TopicType) (len : Nat) (b : UInt8) : Prop :=
  isPrintable b ∧ ((b = chPlus ∨ b = chHash) → type = .topicFilter ∧ len = 1)

def RuleOk (type : TopicType) (l : Level) : Prop := ∀ b ∈ l, ByteOk type l.length b

instance (type : TopicType) (len : Nat) (b : UInt8) : Decidable (ByteOk type len b) :=
  inferInstanceAs (Decidable (isPrintable b ∧ (_ → _)))

instance (type : TopicType) (l : Level) : Decidable (RuleOk type l) :=
  inferInstanceAs (Decidable (∀ b ∈ l, ByteOk type l.length b))

theorem checkRuleLoop_cases (len : Nat) (type : TopicType) (s : List UInt8) :
    ((∀ b ∈ s, ByteOk type len b) ∧ iotxMcCheckRuleLoop len type s = State.success) ∨
    (¬ (∀ b ∈ s, ByteOk type len b) ∧
      iotxMcCheckRuleLoop len type s = State.mqttUnexpTopicFormat) := by
  induction s with
  | nil => exact .inl ⟨by simp, rfl⟩
  | cons b s ih =>
    rw [iotxMcCheckRuleLoop, List.forall_mem_cons]
    split
    · rename_i h
      refine .inr ⟨?_, rfl⟩
      rintro ⟨⟨_, hb⟩, _⟩
      obtain ⟨htype, hlen⟩ := hb h.1
      exact h.2 htype hlen
    · rename_i hwild
      split
      · rename_i hrange
        refine .inr ⟨?_, rfl⟩
        rintro ⟨⟨⟨hlo, hhi⟩, _⟩, _⟩
        rcases hrange with h | h
        · exact absurd h (UInt8.not_lt.mpr hlo)
        · exact absurd hhi (UInt8.not_lt.mpr h)
      · rename_i hrange
        rw [not_or] at hrange
        have hprint : isPrintable b := ⟨UInt8.not_lt.mp hrange.1, UInt8.not_le.mp hrange.2⟩
        have hok : ByteOk type len b := by
          refine ⟨hprint, fun hb => ?_⟩
          by_contra hne
          exact hwild ⟨hb, fun htype hlen => hne ⟨htype, hlen⟩⟩
        simpa only [hok, true_and] using ih

theorem checkRule_cases (type : TopicType) (l : Level) :
    (RuleOk type l ∧ iotxMcCheckRule (some l) type = State.success) ∨
    (¬ RuleOk type l ∧ iotxMcCheckRule (some l) type = State.mqttUnexpTopicFormat) :=
  checkRuleLoop_cases l.length type l

/-- Field by field: `mask` says that the field in front was a `#`. -/
def FieldsOk (type : TopicType) : Bool → List Level → Prop
  | _, [] => True
  | mask, l :: rest => mask = false ∧ RuleOk type l ∧ FieldsOk type (l.head? = some chHash) rest

instance (type : TopicType) : (mask : Bool) → (toks : List Level) →
    Decidable (FieldsOk type mask toks)
  | _, [] => .isTrue trivial
  | mask, l :: rest =>
    have := instDecidableFieldsOk type (l.head? = some chHash) rest
    inferInstanceAs (Decidable (mask = false ∧ RuleOk type l ∧ FieldsOk type _ rest))

variable {type : TopicType} {mask : Bool}

theorem checkTopicLoop_done {pos' : List UInt8} (h : infraStrtok pos = (none, pos')) :
    iotxMcCheckTopicLoop type mask pos = State.success := by
  rw [iotxMcCheckTopicLoop]
  split
  · rfl
  · rename_i h'
    rw [h] at h'
    cases h'

theorem checkTopicLoop_item {pos' tok : List UInt8} (h : infraStrtok pos = (some tok, pos')) :
    iotxMcCheckTopicLoop type mask pos = State.success ↔
      mask = false ∧ RuleOk type tok ∧
        iotxMcCheckTopicLoop type (tok.head? = some chHash) pos' = State.success := by
  have hcode : State.mqttUnexpTopicFormat ≠ State.success := by decide
  rw [iotxMcCheckTopicLoop]
  split
  · rename_i h'
    rw [h] at h'
    cases h'
  · rename_i h'
    rw [h] at h'
    cases h'
    cases mask with
    | true => simp [hcode]
    | false =>
      rcases checkRule_cases type tok with ⟨hok, hres⟩ | ⟨hbad, hres⟩
      · simp [hok, hres]
      · simp [hbad, hres, State.mqttUnexpTopicFormat, State.mqttBase, State.success]

theorem checkTopicLoop_iff {toks : List Level} (h : HandsOut pos toks) :
    iotxMcCheckTopicLoop type mask pos = State.success ↔ FieldsOk type mask toks := by
  induction h generalizing mask with
  | done h => simp [checkTopicLoop_done h, FieldsOk]
  | item h _ ih => rw [checkTopicLoop_item h, FieldsOk, ih]

theorem checkTopic_iff (topic : CStr) (type : TopicType) (hslash : topic.charAt 0 = chSlash)
    (hlen : topic.strlen < configMqttTopicMaxlen) :
    iotxMcCheckTopic topic type = State.success ↔
      ∃ l rest, handed true (levels topic.val) = l :: rest ∧ RuleOk type l ∧
        FieldsOk type false rest := by
  have htake : topic.val.take (configMqttTopicMaxlen - 1) = topic.val :=
    List.take_of_length_le (Nat.le_sub_one_of_lt hlen)
  rw [iotxMcCheckTopic, if_neg (by simp [hslash]), if_neg (Nat.not_lt.mpr (Nat.le_of_lt hlen)),
    htake]
  have hhands := handsOut_levels topic.val
  generalize handed true (levels topic.val) = toks at hhands
  cases hhands with
  | done h => simp [h, iotxMcCheckRule, State.userInputInvalid, State.userInputBase]
  | @item _ pos' tok toks' h hrest =>
    simp only [h]
    rcases checkRule_cases type tok with ⟨hok, hres⟩ | ⟨hbad, hres⟩
    · simp [hres, hok, checkTopicLoop_iff hrest]
    · simp [hres, hbad, State.mqttUnexpTopicFormat, State.mqttBase]

/-! ## Fields and levels -/

theorem handed_sublist (behind : Bool) (L : List Level) : (handed behind L).Sublist L := by
  induction L generalizing behind with
  | nil => exact .slnil
  | cons l L ih =>
    rw [handed]
    split
    · exact (ih false).cons l
    · split
      · exact List.nil_sublist _
      · exact (ih true).cons_cons l

theorem handed_ne_nil {t : Level} (h : t ∈ handed behind L) : t ≠ [] := by
  induction L generalizing behind with
  | nil => cases h
  | cons l L ih =>
    rw [handed] at h
    split at h
    · exact ih h
    · rename_i hl
      split at h
      · cases h
      · rcases List.mem_cons.mp h with rfl | h
        · exact hl
        · exact ih h

theorem mem_handed {q : Level} (hp : behind = true → q ≠ []) (hl : l ∈ L) (hne : l ≠ []) :
    l ∈ handed behind L ∨ ∃ init p c, q :: L = init ++ [p, [c]] ∧ p ≠ [] ∧ l = [c] := by
  induction L generalizing behind q with
  | nil => cases hl
  | cons m L ih =>
    rw [handed]
    split
    · rename_i hm
      rcases List.mem_cons.mp hl with rfl | hl
      · exact absurd hm hne
      · rcases ih (q := m) (fun hb : false = true => by cases hb) hl with h | ⟨init, p, c, hL, h⟩
        · exact .inl h
        · exact .inr ⟨q :: init, p, c, by rw [hL, List.cons_append], h⟩
    · rename_i hm
      split
      · rename_i hlast
        obtain ⟨hb, hlen, rfl⟩ := hlast
        obtain ⟨c, rfl⟩ := List.length_eq_one_iff.mp hlen
        exact .inr ⟨[], q, c, rfl, hp hb, List.mem_singleton.mp hl⟩
      · rcases List.mem_cons.mp hl with rfl | hl
        · exact .inl List.mem_cons_self
        · rcases ih (fun _ => hm) hl with h | ⟨init, p, c, hL, h⟩
          · exact .inl (.tail m h)
          · exact .inr ⟨q :: init, p, c, by rw [hL, List.cons_append], h⟩

theorem handed_append {pre post : List Level} (hl : l ≠ []) (hpost : post ≠ []) :
    handed behind (pre ++ l :: post) = pre.filter (· ≠ []) ++ l :: handed true post := by
  induction pre generalizing behind with
  | nil => simp [handed, hl, hpost]
  | cons m pre ih =>
    rw [List.cons_append, handed]
    split
    · rename_i hm
      rw [ih, List.filter_cons_of_neg (by simp [hm])]
    · rename_i hm
      rw [if_neg (by simp), ih, List.filter_cons_of_pos (by simp [hm]), List.cons_append]

theorem handed_false_eq_nil (h : handed false L = []) : ∀ l ∈ L, l = [] := by
  induction L with
  | nil => simp
  | cons m L ih =>
    rw [handed] at h
    split at h
    · rename_i hm
      exact List.forall_mem_cons.mpr ⟨hm, ih h⟩
    · simp at h

theorem handed_eq_nil (h : handed behind L = []) : (∀ l ∈ L, l = []) ∨ ∃ c, L = [[c]] := by
  cases L with
  | nil => exact .inl (by simp)
  | cons m L =>
    rw [handed] at h
    split at h
    · rename_i hm
      exact .inl (List.forall_mem_cons.mpr ⟨hm, handed_false_eq_nil h⟩)
    · split at h
      · rename_i hlast
        obtain ⟨_, hlen, rfl⟩ := hlast
        obtain ⟨c, rfl⟩ := List.length_eq_one_iff.mp hlen
        exact .inr ⟨c, rfl⟩
      · cases h

theorem fieldsOk_iff {toks : List Level} :
    FieldsOk type mask toks ↔
      (mask = true → toks = []) ∧ (∀ t ∈ toks, RuleOk type t) ∧
        ∀ t ∈ toks.dropLast, t.head? ≠ some chHash := by
  induction toks generalizing mask with
  | nil => simp [FieldsOk]
  | cons t toks ih =>
    rw [FieldsOk, ih]
    cases toks with
    | nil => simp
    | cons u toks =>
      have hdrop : (t :: u :: toks).dropLast = t :: (u :: toks).dropLast := rfl
      rw [hdrop, List.forall_mem_cons (a := t) (l := u :: toks), List.forall_mem_cons (a := t)]
      simp only [decide_eq_true_eq, reduceCtorEq, imp_false, Bool.not_eq_true]
      tauto

/-! ## Legal topics -/

/-- A topic name: printable, with a non-empty level and no wildcard. -/
structure LegalName (L : List Level) : Prop where
  field : ∃ l ∈ L, l ≠ []
  printable : ∀ l ∈ L, ∀ b ∈ l, isPrintable b
  noWild : ∀ l ∈ L, chPlus ∉ l ∧ chHash ∉ l

/-- A topic filter: printable, with a non-empty level, and its wildcards in place. -/
structure LegalFilter (L : List Level) : Prop extends IsFilter L where
  field : ∃ l ∈ L, l ≠ []
  printable : ∀ l ∈ L, ∀ b ∈ l, isPrintable b

/-- The last level is a single byte directly behind a field, where no check sees it, and breaks
the rule. -/
def Unseen (type : TopicType) (L : List Level) : Prop :=
  ∃ init p c, L = init ++ [p, [c]] ∧ p ≠ [] ∧ ¬ RuleOk type [c]

/-- A `#` before the last level that is the first field, or that no other field is seen behind. -/
def EarlyHash (L : List Level) : Prop :=
  ∃ pre post, L = pre ++ [chHash] :: post ∧ post ≠ [] ∧
    ((∀ l ∈ pre, l = []) ∨ (∀ l ∈ post, l = []) ∨ ∃ c, post = [[c]])

section Legal

variable {type : TopicType} {l : Level} {R : List Level}

theorem seen_or_unseen (hl : l ∈ R) (hne : l ≠ []) :
    l ∈ handed false R ∨ ∃ c, l = [c] ∧ ∃ init p, [] :: R = init ++ [p, [c]] ∧ p ≠ [] := by
  rcases mem_handed (q := []) (fun hb : false = true => by cases hb) hl hne with
    h | ⟨init, p, c, hL, hp, rfl⟩
  · exact .inl h
  · exact .inr ⟨c, rfl, init, p, hL, hp⟩

theorem handed_field (h : ∃ l ∈ R, l ≠ []) : handed false R ≠ [] := by
  intro hnil
  obtain ⟨l, hl, hne⟩ := h
  exact hne (handed_false_eq_nil hnil l hl)

theorem RuleOk.noWild (h : RuleOk .topicName l) : chPlus ∉ l ∧ chHash ∉ l := by
  constructor
  · intro hmem
    cases ((h _ hmem).2 (.inl rfl)).1
  · intro hmem
    cases ((h _ hmem).2 (.inr rfl)).1

theorem RuleOk.alone {b : UInt8} (hb : b = chPlus ∨ b = chHash) (h : RuleOk type l)
    (hmem : b ∈ l) : l = [b] := by
  obtain ⟨c, rfl⟩ := List.length_eq_one_iff.mp ((h b hmem).2 hb).2
  rw [List.mem_singleton.mp hmem]

theorem ruleOk_name (hprint : ∀ b ∈ l, isPrintable b) (h : chPlus ∉ l ∧ chHash ∉ l) :
    RuleOk .topicName l := by
  intro b hb
  refine ⟨hprint b hb, ?_⟩
  rintro (rfl | rfl)
  · exact absurd hb h.1
  · exact absurd hb h.2

theorem ruleOk_filter (hprint : ∀ b ∈ l, isPrintable b) (hplus : chPlus ∈ l → l = [chPlus])
    (hhash : chHash ∈ l → l = [chHash]) : RuleOk .topicFilter l := by
  intro b hb
  refine ⟨hprint b hb, ?_⟩
  rintro (rfl | rfl)
  · exact ⟨rfl, by rw [hplus hb]; rfl⟩
  · exact ⟨rfl, by rw [hhash hb]; rfl⟩

theorem checks_iff : (∃ l rest, handed false R = l :: rest ∧ RuleOk type l ∧
      FieldsOk type false rest) ↔
    handed false R ≠ [] ∧ (∀ t ∈ handed false R, RuleOk type t) ∧
      ∀ t ∈ (handed false R).tail.dropLast, t.head? ≠ some chHash := by
  cases handed false R with
  | nil => simp
  | cons t toks =>
    simp only [List.cons.injEq, fieldsOk_iff, List.tail_cons, List.forall_mem_cons]
    simp [and_assoc]

theorem ruleOk_of_checks (hunseen : ¬ Unseen type ([] :: R))
    (hrule : ∀ t ∈ handed false R, RuleOk type t) : ∀ l ∈ [] :: R, RuleOk type l := by
  intro l hl
  by_cases hl0 : l = []
  · subst hl0
    exact fun b hb => by cases hb
  · have hR : l ∈ R := (List.mem_cons.mp hl).resolve_left hl0
    rcases seen_or_unseen hR hl0 with h | ⟨c, rfl, init, p, hL, hp⟩
    · exact hrule l h
    · by_contra hbad
      exact hunseen ⟨init, p, c, hL, hp, hbad⟩

theorem field_of_handed (h : handed false R ≠ []) : ∃ l ∈ [] :: R, l ≠ [] := by
  obtain ⟨t, toks, ht⟩ := List.exists_cons_of_ne_nil h
  have hmem : t ∈ handed false R := by rw [ht]; exact List.mem_cons_self
  exact ⟨t, .tail [] ((handed_sublist false R).subset hmem), handed_ne_nil hmem⟩

theorem handed_of_field (h : ∃ l ∈ [] :: R, l ≠ []) : handed false R ≠ [] := by
  obtain ⟨l, hl, hne⟩ := h
  exact handed_field ⟨l, (List.mem_cons.mp hl).resolve_left hne, hne⟩

theorem hash_seen {pre post : List Level} (hearly : ¬ EarlyHash ([] :: R))
    (hL : [] :: R = pre ++ [chHash] :: post) (hpost : post ≠ []) :
    [chHash] ∈ (handed false R).tail.dropLast := by
  have hcases : ¬ ((∀ l ∈ pre, l = []) ∨ (∀ l ∈ post, l = []) ∨ ∃ c, post = [[c]]) :=
    fun h => hearly ⟨pre, post, hL, hpost, h⟩
  rw [not_or, not_or] at hcases
  obtain ⟨hpre, hempty, hsingle⟩ := hcases
  have hmore : handed true post ≠ [] := by
    intro hnil
    exact (handed_eq_nil hnil).elim hempty hsingle
  have hfront : pre.filter (· ≠ []) ≠ [] := by
    intro hnil
    rw [List.filter_eq_nil_iff] at hnil
    exact hpre (fun l hl => by simpa using hnil l hl)
  have hhanded : handed false R = pre.filter (· ≠ []) ++ [chHash] :: handed true post := by
    have h : handed false (pre ++ [chHash] :: post) = _ := handed_append (by simp) hpost
    rwa [← hL, handed, if_pos rfl] at h
  rw [hhanded, List.tail_append_of_ne_nil hfront, List.dropLast_append_of_ne_nil (by simp),
    List.dropLast_cons_of_ne_nil hmore]
  exact List.mem_append_right _ List.mem_cons_self

theorem mem_dropLast_of_handed {t : Level} (h : t ∈ (handed false R).tail.dropLast) :
    t ∈ ([] :: R).dropLast := by
  have hsub : (handed false R).tail.Sublist ([] :: R) :=
    ((List.tail_sublist _).trans (handed_sublist false R)).cons []
  have hrev := hsub.reverse.tail
  rw [List.tail_reverse, List.tail_reverse] at hrev
  exact (List.reverse_sublist.mp hrev).subset h

theorem name_checks_iff (hunseen : ¬ Unseen .topicName ([] :: R)) :
    (handed false R ≠ [] ∧ (∀ t ∈ handed false R, RuleOk .topicName t) ∧
      ∀ t ∈ (handed false R).tail.dropLast, t.head? ≠ some chHash) ↔ LegalName ([] :: R) := by
  constructor
  · rintro ⟨hne, hrule, _⟩
    have hlevel := ruleOk_of_checks hunseen hrule
    exact ⟨field_of_handed hne, fun l hl b hb => (hlevel l hl b hb).1,
      fun l hl => (hlevel l hl).noWild⟩
  · intro h
    refine ⟨handed_of_field h.field, ?_, ?_⟩
    · intro t ht
      have hl : t ∈ [] :: R := .tail [] ((handed_sublist false R).subset ht)
      exact ruleOk_name (h.printable t hl) (h.noWild t hl)
    · intro t ht hhash
      exact (h.noWild t (List.dropLast_subset _ (mem_dropLast_of_handed ht))).2
        (List.mem_of_mem_head? hhash)

theorem filter_checks_iff (hunseen : ¬ Unseen .topicFilter ([] :: R))
    (hearly : ¬ EarlyHash ([] :: R)) :
    (handed false R ≠ [] ∧ (∀ t ∈ handed false R, RuleOk .topicFilter t) ∧
      ∀ t ∈ (handed false R).tail.dropLast, t.head? ≠ some chHash) ↔ LegalFilter ([] :: R) := by
  constructor
  · rintro ⟨hne, hrule, hmask⟩
    have hlevel := ruleOk_of_checks hunseen hrule
    refine ⟨⟨fun l hl => (hlevel l hl).alone (.inl rfl), fun l hl => (hlevel l hl).alone (.inr rfl),
      ?_⟩, field_of_handed hne, fun l hl b hb => (hlevel l hl b hb).1⟩
    rintro l hl rfl
    obtain ⟨pre, mid, hsplit⟩ := List.append_of_mem hl
    have hL : [] :: R = pre ++ [chHash] :: (mid ++ [([] :: R).getLast (by simp)]) := by
      rw [← List.cons_append, ← List.append_assoc, ← hsplit, List.dropLast_append_getLast]
    exact hmask [chHash] (hash_seen hearly hL (by simp)) rfl
  · intro h
    refine ⟨handed_of_field h.field, ?_, ?_⟩
    · intro t ht
      have hl : t ∈ [] :: R := .tail [] ((handed_sublist false R).subset ht)
      exact ruleOk_filter (h.printable t hl) (h.plusAlone t hl) (h.hashAlone t hl)
    · intro t ht hhash
      have hmem := mem_dropLast_of_handed ht
      exact h.hashLast t hmem
        (h.hashAlone t (List.dropLast_subset _ hmem) (List.mem_of_mem_head? hhash))

end Legal

theorem levels_of_slash {topic : CStr} (h : topic.charAt 0 = chSlash) :
    ∃ R, levels topic.val = [] :: R := by
  obtain ⟨s, hs⟩ := topic
  cases s with
  | nil => simp [CStr.charAt, chSlash] at h
  | cons b s =>
    obtain rfl : b = chSlash := by simpa [CStr.charAt] using h
    exact ⟨levels s, levels_slash s⟩

/-- On the topics that begin with `/` and fit the buffer, validation accepts exactly the legal
ones, where no byte behind the last field goes unseen and no `#` stands early. -/
theorem checkTopic_legal (topic : CStr) (hslash : topic.charAt 0 = chSlash)
    (hlen : topic.strlen < configMqttTopicMaxlen) :
    (¬ Unseen .topicName (levels topic.val) →
      (iotxMcCheckTopic topic .topicName = State.success ↔ LegalName (levels topic.val))) ∧
    (¬ Unseen .topicFilter (levels topic.val) → ¬ EarlyHash (levels topic.val) →
      (iotxMcCheckTopic topic .topicFilter = State.success ↔ LegalFilter (levels topic.val))) := by
  obtain ⟨R, hR⟩ := levels_of_slash hslash
  have hhanded : handed true (levels topic.val) = handed false R := by rw [hR, handed, if_pos rfl]
  rw [checkTopic_iff topic _ hslash hlen, checkTopic_iff topic _ hslash hlen, hhanded, checks_iff,
    checks_iff, hR]
  exact ⟨name_checks_iff, filter_checks_iff⟩

theorem EarlyHash.mem_dropLast (h : EarlyHash L) : [chHash] ∈ L.dropLast := by
  obtain ⟨pre, post, rfl, hpost, -⟩ := h
  rw [List.dropLast_append_of_ne_nil (List.cons_ne_nil _ _), List.dropLast_cons_of_ne_nil hpost]
  exact List.mem_append_right _ List.mem_cons_self

theorem Unseen.getLast (h : Unseen type L) : ∃ c, L.getLast? = some [c] ∧ ¬ RuleOk type [c] := by
  obtain ⟨init, p, c, rfl, -, hrule⟩ := h
  exact ⟨c, by simp, hrule⟩

/-- `/+/cd` is no legal name, but a legal filter, and so is `/ab/#`. -/
theorem checkTopic_legal_wildcards :
    iotxMcCheckTopic ⟨[0x2F, 0x2B, 0x2F, 0x63, 0x64], by decide⟩ .topicName ≠ State.success ∧
    iotxMcCheckTopic ⟨[0x2F, 0x2B, 0x2F, 0x63, 0x64], by decide⟩ .topicFilter = State.success ∧
    iotxMcCheckTopic ⟨[0x2F, 0x61, 0x62, 0x2F, 0x23], by decide⟩ .topicFilter
      = State.success := by
  obtain ⟨hname, hplus⟩ := checkTopic_legal ⟨[0x2F, 0x2B, 0x2F, 0x63, 0x64], by decide⟩ rfl
    (by decide)
  obtain ⟨-, hhash⟩ := checkTopic_legal ⟨[0x2F, 0x61, 0x62, 0x2F, 0x23], by decide⟩ rfl (by decide)
  have hseen (type : TopicType) : ¬ Unseen type (levels [0x2F, 0x2B, 0x2F, 0x63, 0x64]) := by
    intro h
    obtain ⟨c, hc, -⟩ := h.getLast
    have hlast : some ([0x63, 0x64] : Level) = some [c] := hc
    simp at hlast
  have hseen' : ¬ Unseen .topicFilter (levels [0x2F, 0x61, 0x62, 0x2F, 0x23]) := by
    intro h
    obtain ⟨c, hc, hrule⟩ := h.getLast
    have hlast : some ([0x23] : Level) = some [c] := hc
    obtain rfl : (0x23 : UInt8) = c := by simpa using hlast
    exact hrule (by decide)
  refine ⟨fun h => ?_, (hplus (hseen _) fun h => ?_).mpr ?_, (hhash hseen' fun h => ?_).mpr ?_⟩
  · exact absurd ((hname (hseen _)).mp h).noWild (by decide)
  · exact absurd h.mem_dropLast (by decide)
  · exact ⟨⟨by decide, by decide, by decide⟩, by decide, by decide⟩
  · exact absurd h.mem_dropLast (by decide)
  · exact ⟨⟨by decide, by decide, by decide⟩, by decide, by decide⟩

/-- `/` has no wildcard and is refused; `/a/+` is accepted as a name, `/a/#/b` and `/#/a` as
filters. -/
theorem checkTopic_departs :
    iotxMcCheckTopic ⟨[0x2F], by decide⟩ .topicName ≠ State.success ∧
    iotxMcCheckTopic ⟨[0x2F, 0x61, 0x2F, 0x2B], by decide⟩ .topicName = State.success ∧
    iotxMcCheckTopic ⟨[0x2F, 0x61, 0x2F, 0x23, 0x2F, 0x62], by decide⟩ .topicFilter
      = State.success ∧
    iotxMcCheckTopic ⟨[0x2F, 0x23, 0x2F, 0x61], by decide⟩ .topicFilter = State.success := by
  refine ⟨by decide, ?_, ?_, ?_⟩
  · apply (checkTopic_iff _ _ rfl (by decide)).mpr
    exact ⟨[0x61], [], rfl, by decide, by decide⟩
  · apply (checkTopic_iff _ _ rfl (by decide)).mpr
    exact ⟨[0x61], [[0x23]], rfl, by decide, by decide⟩
  · apply (checkTopic_iff _ _ rfl (by decide)).mpr
    exact ⟨[0x23], [], rfl, by decide, by decide⟩

end AliyunIot.Mqtt
