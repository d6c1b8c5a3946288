import AliyunIot.Dm.ShadowKey

/-!
# Setting and getting by key

A successful set changes the one leaf that the search has found, and a get by the same key reads
it back. The search finds leaves also for keys that name none: `Careful` says when it does not.
-/

namespace AliyunIot.Dm.Shadow

open Libc Cjson State

/-! ## Leaves -/

/-- The `k`-th leaf of a value: its own, or an element's. -/
def DataValue.cell : DataValue → Nat → Option Leaf
  | .basic t v, 0 => some ⟨t, v⟩
  | .basicArray t _ items, k => items[k]?.map (Leaf.mk t)
  | _, _ => Option.none

def leafAt (v : DataValue) (path : List Step) (k : Nat) : Option Leaf :=
  (v.find path).bind fun node => node.cell k

/-- A value without entries below it. -/
def DataValue.Leafy : DataValue → Prop
  | .basic _ _ | .basicArray _ _ _ => True
  | _ => False

section Tree

variable {v node node' : DataValue} {path : List Step} {k : Nat} {f : DataValue → DataValue}

theorem find_of_leafy (h : v.Leafy) (step : Step) (path : List Step) :
    v.find (step :: path) = none := by
  cases v with
  | basic t v => simp [DataValue.find]
  | basicArray t size items => simp [DataValue.find]
  | none => cases h
  | nullArray => cases h
  | emptyArray type size => cases h
  | structArray size items => cases h
  | struct members => cases h

theorem find_cons {step : Step} (h : v.find (step :: path) = some node) :
    (∃ members i d, v = .struct (some members) ∧ step = .member i ∧ members[i]? = some d ∧
      d.2.find path = some node) ∨
    ∃ size items members i j d, v = .structArray size items ∧ step = .element i j ∧
      items[i]? = some (some members) ∧ members[j]? = some d ∧ d.2.find path = some node := by
  unfold DataValue.find at h
  split at h
  next heq => cases heq
  next members i path' heq =>
    cases heq
    obtain ⟨d, hd, hfind⟩ := Option.bind_eq_some_iff.mp h
    exact .inl ⟨members, i, d, rfl, rfl, hd, hfind⟩
  next size items i j path' heq =>
    cases heq
    obtain ⟨d, hd, hfind⟩ := Option.bind_eq_some_iff.mp h
    obtain ⟨members, hmembers, hj⟩ := Option.bind_eq_some_iff.mp hd
    exact .inr ⟨size, items, members, i, j, d, rfl, rfl, Option.join_eq_some_iff.mp hmembers, hj,
      hfind⟩
  next => cases h

theorem find_update (h : v.find path = some node) :
    (v.update f path).find path = some (f node) := by
  induction path generalizing v with
  | nil =>
    cases h
    rw [DataValue.update]
    rfl
  | cons step path ih =>
    obtain ⟨members, i, d, rfl, rfl, hd, hfind⟩ |
      ⟨size, items, members, i, j, d, rfl, rfl, hi, hj, hfind⟩ := find_cons h
    · simp [DataValue.update, DataValue.find, hd, ih hfind]
    · simp [DataValue.update, DataValue.find, hi, hj, ih hfind]

theorem leafAt_update (h : v.find path = some node) (hleafy : node.Leafy)
    (hleafy' : (f node).Leafy) (hcell : ∀ k' ≠ k, (f node).cell k' = node.cell k')
    (path' : List Step) (k' : Nat) (hne : ¬ (path' = path ∧ k' = k)) :
    leafAt (v.update f path) path' k' = leafAt v path' k' := by
  induction path generalizing v path' with
  | nil =>
    cases h
    rw [DataValue.update]
    cases path' with
    | nil => exact hcell k' fun hk => hne ⟨rfl, hk⟩
    | cons step path' => rw [leafAt, leafAt, find_of_leafy hleafy, find_of_leafy hleafy']
  | cons step path ih =>
    obtain ⟨members, i, d, rfl, rfl, hd, hfind⟩ |
      ⟨size, items, members, i, j, d, rfl, rfl, hi, hj, hfind⟩ := find_cons h
    · rcases path' with _ | ⟨i' | ⟨i', j'⟩, path'⟩
      · rfl
      · by_cases hi' : i' = i
        · subst hi'
          have := ih hfind path' fun h => hne ⟨by rw [h.1], h.2⟩
          simpa [leafAt, DataValue.update, DataValue.find, hd] using this
        · simp [leafAt, DataValue.update, DataValue.find, Ne.symm hi']
      · rfl
    · rcases path' with _ | ⟨i' | ⟨i', j'⟩, path'⟩
      · rfl
      · rfl
      · by_cases hi' : i' = i
        · subst hi'
          by_cases hj' : j' = j
          · subst hj'
            have := ih hfind path' fun h => hne ⟨by rw [h.1], h.2⟩
            simpa [leafAt, DataValue.update, DataValue.find, hi, hj] using this
          · simp [leafAt, DataValue.update, DataValue.find, hi, Ne.symm hj']
        · simp [leafAt, DataValue.update, DataValue.find, Ne.symm hi']

end Tree

/-! ## Keys that name a leaf -/

/-- The parts of a key name the `k`-th leaf at a path from an entry: names with decimal indices
behind those of arrays. The name of an array alone stands for its first element. -/
inductive Spells : Data → List (List UInt8) → List Step → Nat → Prop where
  | name {identifier : CStr} {v : DataValue} (hname : ∀ pre txt, ¬ HasIndex identifier.val pre txt)
    (hleafy : v.Leafy) : Spells (some identifier, v) [identifier.val] [] 0
  | element {identifier : CStr} {t : BasicType} {size : Int} {items : List t.Cell}
    {txt : List UInt8} {n : Nat} (hne : identifier.val ≠ []) (hindex : IsIndex txt n) :
    Spells (some identifier, .basicArray t size items) [identifier.val ++ 91 :: (txt ++ [93])] [] n
  | member {identifier : CStr} {members : List Data} {i k : Nat} {d : Data}
    {parts : List (List UInt8)} {path : List Step}
    (hname : ∀ pre txt, ¬ HasIndex identifier.val pre txt) (hd : members[i]? = some d)
    (h : Spells d parts path k) :
    Spells (some identifier, .struct (some members)) (identifier.val :: parts)
      (.member i :: path) k
  | structElement {identifier : CStr} {size : Int} {items : List (Option (List Data))}
    {members : List Data} {txt : List UInt8} {n j k : Nat} {d : Data} {parts : List (List UInt8)}
    {path : List Step} (hne : identifier.val ≠ []) (hindex : IsIndex txt n)
    (hitem : items[n]? = some (some members)) (hd : members[j]? = some d)
    (h : Spells d parts path k) :
    Spells (some identifier, .structArray size items)
      ((identifier.val ++ 91 :: (txt ++ [93])) :: parts) (.element n j :: path) k

/-- The parts of a key behind the first one are used up by the steps of a path, one by one; a step
to an element is the last one. -/
def UsesUp : List Step → List (List UInt8) → Prop
  | [], rest => rest = []
  | .member _ :: path, _ :: rest => UsesUp path rest
  | .element _ _ :: path, rest => path = [] ∧ rest.length = 1
  | .member _ :: _, [] => False

def DataValue.Settable : DataValue → Int → Prop
  | .basic _ _, _ => True
  | .basicArray _ size items, index => ¬ OutOfRange size index ∧ index.toNat < items.length
  | _, _ => False

/-! ## What the search finds -/

section Search

variable {v : DataValue} {seg : List UInt8} {rest : List (List UInt8)} {path : List Step}
  {index : Int} {identifier : CStr}

variable {members : List Data}

theorem firstNamed_eq {name : List UInt8} {start i : Nat}
    (h : firstNamed name start members = .named i v) :
    ∃ identifier : CStr, start ≤ i ∧ members[i - start]? = some (some identifier, v) ∧
      identifier.val = name := by
  induction members generalizing start with
  | nil => cases h
  | cons d members ih =>
    have hrest : firstNamed name (start + 1) members = .named i v →
        ∃ identifier : CStr, start ≤ i ∧
          (d :: members)[i - start]? = some (some identifier, v) ∧ identifier.val = name := by
      intro h
      obtain ⟨identifier, hle, hget, hname⟩ := ih h
      have hsub : i - start = i - (start + 1) + 1 := by omega
      exact ⟨identifier, by omega, by rw [hsub]; exact hget, hname⟩
    obtain ⟨_ | identifier, w⟩ := d
    · cases h
    · unfold firstNamed at h
      split at h
      · rename_i hname
        split at h
        · exact hrest h
        · cases h
          exact ⟨identifier, Nat.le_refl _, by simp, hname⟩
      · exact hrest h

theorem not_element (hname : identifier.val = (segment seg).name)
    (hpartLen : (segment seg).partialInputLen = 0) (hne : identifier.val ≠ []) {txt : List UInt8}
    (heq : seg = identifier.val ++ 91 :: (txt ++ [93])) : False := by
  obtain ⟨-, hseg⟩ | ⟨pre, txt', -, ⟨-, hseg⟩ | ⟨-, hseg⟩⟩ := segment_cases seg
  · rw [hseg] at hname
    exact ne_of_eq_append heq hname
  · rw [hseg] at hname
    exact ne_of_eq_append heq hname
  · rw [hseg] at hname hpartLen
    rw [List.eq_nil_of_length_eq_zero hpartLen] at hname
    exact hne hname

theorem partial_of_not_hasIndex (h : ∀ pre txt, ¬ HasIndex seg pre txt) :
    (segment seg).partialInputLen = 0 := by
  rw [segment_of_not_hasIndex h]

theorem spells_whole_iff (hname : identifier.val = (segment seg).name)
    (hpartLen : (segment seg).partialInputLen = 0) (hleafy : v.Leafy) :
    Spells (some identifier, v) [seg] [] 0 ↔ Written seg := by
  constructor
  · intro h
    cases h with
    | name hnot _ => exact (written_iff_name hname hpartLen).mpr ⟨rfl, hnot⟩
    | element hne _ => exact (not_element hname hpartLen hne rfl).elim
  · intro h
    obtain ⟨rfl, hnot⟩ := (written_iff_name hname hpartLen).mp h
    exact .name hnot hleafy

variable {size : Int}

theorem spells_element_iff {t : BasicType} {items : List t.Cell}
    (hname : identifier.val = (segment seg).name) (hpartLen : (segment seg).partialInputLen ≠ 0) :
    Spells (some identifier, .basicArray t size items) (seg :: rest) []
      (segment seg).arrayIndex.toNat ↔ Written seg ∧ rest = [] := by
  constructor
  · intro h
    generalize hparts : seg :: rest = parts at h
    generalize hk : (segment seg).arrayIndex.toNat = k at h
    cases h with
    | name hnot _ =>
      cases hparts
      exact absurd (partial_of_not_hasIndex hnot) hpartLen
    | element hne hindex =>
      cases hparts
      refine ⟨(written_iff_index hname hpartLen).mpr ⟨hne, _, rfl, ?_⟩, rfl⟩
      rw [hk]
      exact hindex
  · rintro ⟨h, rfl⟩
    obtain ⟨hne, txt, heq, hindex⟩ := (written_iff_index hname hpartLen).mp h
    have helement : Spells (some identifier, .basicArray t size items)
        [identifier.val ++ 91 :: (txt ++ [93])] [] _ := .element hne hindex
    rwa [← heq] at helement

theorem spells_member_iff {i k : Nat} {d : Data}
    (hname : identifier.val = (segment seg).name) (hpartLen : (segment seg).partialInputLen = 0)
    (hd : members[i]? = some d) :
    Spells (some identifier, .struct (some members)) (seg :: rest) (.member i :: path) k ↔
      Written seg ∧ Spells d rest path k := by
  constructor
  · intro h
    cases h with
    | member hnot hd' h =>
      rw [hd] at hd'
      cases hd'
      exact ⟨(written_iff_name hname hpartLen).mpr ⟨rfl, hnot⟩, h⟩
  · rintro ⟨h, hrest⟩
    obtain ⟨rfl, hnot⟩ := (written_iff_name hname hpartLen).mp h
    exact .member hnot hd hrest

theorem spells_structElement_iff {items : List (Option (List Data))}
    {j k : Nat} {d : Data} (hname : identifier.val = (segment seg).name)
    (hpartLen : (segment seg).partialInputLen ≠ 0)
    (hitem : items[(segment seg).arrayIndex.toNat]? = some (some members))
    (hd : members[j]? = some d) :
    Spells (some identifier, .structArray size items) (seg :: rest)
        (.element (segment seg).arrayIndex.toNat j :: path) k ↔
      Written seg ∧ Spells d rest path k := by
  constructor
  · intro h
    generalize hparts : seg :: rest = parts at h
    generalize hn : (segment seg).arrayIndex.toNat = n at h hitem
    cases h with
    | structElement hne hindex hitem' hd' h =>
      cases hparts
      rw [hitem] at hitem'
      cases hitem'
      rw [hd] at hd'
      cases hd'
      refine ⟨(written_iff_index hname hpartLen).mpr ⟨hne, _, rfl, ?_⟩, h⟩
      rw [hn]
      exact hindex
  · rintro ⟨h, hrest⟩
    obtain ⟨hne, txt, heq, hindex⟩ := (written_iff_index hname hpartLen).mp h
    have helement : Spells (some identifier, .structArray size items)
        ((identifier.val ++ 91 :: (txt ++ [93])) :: rest) _ k :=
      .structElement hne hindex hitem hd hrest
    rwa [← heq] at helement

theorem usesUp_nil_iff : UsesUp path [] ↔ path = [] := by
  cases path with
  | nil => exact ⟨fun _ => rfl, fun _ => rfl⟩
  | cons step path => cases step <;> simp [UsesUp]

theorem found_of_under {step : Step} {found : Found} (h : found.under step = .found path index) :
    ∃ path', found = .found path' index ∧ path = step :: path' := by
  cases found with
  | undefined => cases h
  | failed => cases h
  | found path' index' =>
    cases h
    exact ⟨path', rfl, rfl⟩

theorem path_of_search_nil (h : valueSearch v [] [] = .found path index) : path = [] := by
  have hpartLen : (segment []).partialInputLen = 0 := rfl
  unfold valueSearch at h
  cases v <;> simp [hpartLen] at h <;> exact h.1

theorem parts_of_search_last {d : Data} {part : List UInt8} {parts : List (List UInt8)} {k : Nat}
    (h : valueSearch d.2 part [] = .found path index) (hspells : Spells d (part :: parts) path k) :
    parts = [] ∨ parts = [[]] := by
  generalize hparts : part :: parts = all at hspells
  cases hspells with
  | name _ _ =>
    cases hparts
    exact .inl rfl
  | element _ _ =>
    cases hparts
    exact .inl rfl
  | member hnot hd hrest =>
    unfold valueSearch at h
    simp at h
  | structElement hne hindex hitem hd hrest =>
    cases hparts
    unfold valueSearch at h
    simp only [List.headD_nil] at h
    split at h
    · simp at h
    · split at h
      · cases h
      · split at h
        next members hmembers =>
          split at h
          · cases h
          · cases h
          · rename_i j w hnamed
            obtain ⟨path', hfound, hpath⟩ := found_of_under h
            simp only [List.cons.injEq, Step.element.injEq] at hpath
            obtain ⟨⟨hn, rfl⟩, rfl⟩ := hpath
            obtain ⟨identifier', -, hget, hempty⟩ := firstNamed_eq hnamed
            rw [← hn, hitem] at hmembers
            cases hmembers
            rw [Nat.sub_zero, hd] at hget
            cases hget
            have hnil := path_of_search_nil hfound
            subst hnil
            have hname : identifier'.val = [] := hempty
            generalize hd' : (some identifier', w) = d at hrest
            cases hrest with
            | name _ _ =>
              cases hd'
              exact .inr (by rw [hname])
            | element hne' _ =>
              cases hd'
              exact absurd hname hne'
        next => cases h

/-- The search has found a value; if it can be set, the key names it exactly if its parts are
written properly and used up. -/
def Exact (v : DataValue) (seg : List UInt8) (rest : List (List UInt8)) (path : List Step)
    (index : Int) : Prop :=
  ∃ node, v.find path = some node ∧ (node.Settable index →
    (node.cell index.toNat).isSome ∧ ∀ identifier : CStr, identifier.val = (segment seg).name →
      (Spells (some identifier, v) (seg :: rest) path index.toNat ↔
        (∀ part ∈ seg :: rest, Written part) ∧ UsesUp path rest))

theorem exact_of_not_settable (h : ¬ v.Settable index) : Exact v seg rest [] index :=
  ⟨v, rfl, fun hset => absurd hset h⟩

theorem exact_whole (hpartLen : (segment seg).partialInputLen = 0) (hleafy : v.Leafy)
    (hcell : v.Settable 0 → (v.cell 0).isSome) : Exact v seg [] [] 0 := by
  refine ⟨v, rfl, fun hset => ⟨hcell hset, fun identifier hname => ?_⟩⟩
  show Spells _ _ _ 0 ↔ _
  rw [spells_whole_iff hname hpartLen hleafy]
  simp [UsesUp]

theorem exact_element {t : BasicType} {items : List t.Cell}
    (hpartLen : (segment seg).partialInputLen ≠ 0) :
    Exact (.basicArray t size items) seg rest [] (segment seg).arrayIndex := by
  refine ⟨_, rfl, fun hset => ⟨?_, fun identifier hname => ?_⟩⟩
  · have := hset.2
    simp [DataValue.cell, this]
  · rw [spells_element_iff hname hpartLen]
    constructor
    · rintro ⟨h, rfl⟩
      simp [h, UsesUp]
    · rintro ⟨h, hrest⟩
      exact ⟨h seg List.mem_cons_self, hrest⟩

theorem exact_member {i : Nat} {identifier' : CStr} {w : DataValue}
    {part : List UInt8} (hpartLen : (segment seg).partialInputLen = 0)
    (hd : members[i]? = some (some identifier', w)) (hname' : identifier'.val = (segment part).name)
    (h : Exact w part rest path index) :
    Exact (.struct (some members)) seg (part :: rest) (.member i :: path) index := by
  obtain ⟨node, hfind, hset⟩ := h
  refine ⟨node, by simp [DataValue.find, hd, hfind], fun hs => ?_⟩
  obtain ⟨hcell, hiff⟩ := hset hs
  refine ⟨hcell, fun identifier hname => ?_⟩
  rw [spells_member_iff hname hpartLen hd, hiff identifier' hname', ← and_assoc,
    List.forall_mem_cons (a := seg)]
  rfl

theorem exact_structElement {items : List (Option (List Data))}
    {j : Nat} {identifier' : CStr} {w : DataValue} (hpartLen : (segment seg).partialInputLen ≠ 0)
    (hitem : items[(segment seg).arrayIndex.toNat]? = some (some members))
    (hd : members[j]? = some (some identifier', w))
    (hname' : identifier'.val = (segment (rest.headD [])).name) (hlast : rest.getLast? ≠ some [])
    (hsearch : valueSearch w (rest.headD []) [] = .found path index)
    (h : Exact w (rest.headD []) [] path index) :
    Exact (.structArray size items) seg rest
      (.element (segment seg).arrayIndex.toNat j :: path) index := by
  obtain ⟨node, hfind, hset⟩ := h
  refine ⟨node, by simp [DataValue.find, hitem, hd, hfind], fun hs => ?_⟩
  obtain ⟨hcell, hiff⟩ := hset hs
  refine ⟨hcell, fun identifier hname => ?_⟩
  rw [spells_structElement_iff hname hpartLen hitem hd, List.forall_mem_cons, and_assoc]
  refine and_congr_right fun _ => ?_
  rcases rest with _ | ⟨part, _ | ⟨part', rest⟩⟩
  · constructor
    · intro h
      cases h
    · intro h
      simp [UsesUp] at h
  · rw [List.headD_cons] at hiff hname'
    rw [hiff identifier' hname', usesUp_nil_iff]
    simp [UsesUp]
  · constructor
    · intro h
      obtain hnil | hone := parts_of_search_last hsearch h
      · cases hnil
      · rw [hone] at hlast
        simp at hlast
    · intro h
      simp [UsesUp] at h

theorem valueSearch_found (hlast : rest.getLast? ≠ some [])
    (h : valueSearch v seg rest = .found path index) : Exact v seg rest path index := by
  fun_induction valueSearch v seg rest generalizing path index
  all_goals try cases h
  case case3.refl seg rest t v hguard =>
    obtain ⟨hpartLen, hrest⟩ := not_or.mp hguard
    rw [not_not.mp hrest]
    exact exact_whole (not_not.mp hpartLen) trivial fun _ => rfl
  case case12.refl seg t size items hpartLen =>
    refine exact_whole hpartLen trivial fun hset => ?_
    have hpos : 0 < items.length := hset.2
    simp [DataValue.cell, hpos]
  case case14.refl seg rest t size items hpartLen hle => exact exact_element hpartLen
  case case21 seg rest size items hpartLen hge part members hitem j w hnamed ih =>
    obtain ⟨path', hfound, rfl⟩ := found_of_under h
    obtain ⟨identifier', -, hd, hname'⟩ := firstNamed_eq hnamed
    exact exact_structElement hpartLen hitem hd hname' hlast hfound (ih (by simp) hfound)
  case case28 seg part rest hpartLen members i w hnamed ih =>
    obtain ⟨path', hfound, rfl⟩ := found_of_under h
    obtain ⟨identifier', -, hd, hname'⟩ := firstNamed_eq hnamed
    refine exact_member (not_not.mp hpartLen) hd hname' (ih ?_ hfound)
    intro hnil
    refine hlast ?_
    cases rest with
    | nil => cases hnil
    | cons part' rest => rwa [List.getLast?_cons_cons]
  all_goals exact exact_of_not_settable fun hset => hset

end Search

/-! ## A set leaves the search as it is -/

/-- Another content of the same leaf, or of the elements of the same array. -/
def Keeps : DataValue → DataValue → Prop
  | .basic t _, .basic t' _ => t = t'
  | .basicArray t size items, .basicArray t' size' items' =>
    t = t' ∧ size = size' ∧ items.length = items'.length
  | _, _ => False

section Kept

variable {v node : DataValue} {path : List Step} {f : DataValue → DataValue}

theorem Keeps.leafy {node' : DataValue} (h : Keeps node node') : node.Leafy ∧ node'.Leafy := by
  cases node <;> cases node' <;> simp_all [Keeps, DataValue.Leafy]

theorem update_eq_none_iff (hfind : v.find path = some node) (hkeeps : Keeps node (f node)) :
    v.update f path = .none ↔ v = .none := by
  cases path with
  | nil =>
    cases hfind
    rw [DataValue.update]
    constructor
    · intro h
      rw [h] at hkeeps
      exact absurd hkeeps.leafy.2 (by simp [DataValue.Leafy])
    · rintro rfl
      exact absurd hkeeps.leafy.1 (by simp [DataValue.Leafy])
  | cons step path =>
    obtain ⟨members, i, d, rfl, rfl, -, -⟩ |
      ⟨size, items, members, i, j, d, rfl, rfl, -, -, -⟩ := find_cons hfind
    · simp [DataValue.update]
    · simp [DataValue.update]

/-- The member that is found when one of them has another value. -/
def Named.modify (i : Nat) (g : DataValue → DataValue) : Named → Named
  | .named j v => .named j (if j = i then g v else v)
  | .missing => .missing
  | .undefined => .undefined

theorem firstNamed_none {name : List UInt8} (start : Nat) (identifier : CStr)
    (members : List Data) :
    firstNamed name start ((some identifier, .none) :: members) =
      firstNamed name (start + 1) members := by
  rw [firstNamed]
  split <;> rfl

theorem firstNamed_cons {name : List UInt8} (hv : v ≠ .none) (start : Nat) (identifier : CStr)
    (members : List Data) :
    firstNamed name start ((some identifier, v) :: members) =
      if identifier.val = name then .named start v else firstNamed name (start + 1) members := by
  conv => lhs; unfold firstNamed
  cases v with
  | none => exact absurd rfl hv
  | _ => rfl

theorem firstNamed_modify {name : List UInt8} {g : DataValue → DataValue} {members : List Data}
    {i : Nat} (hg : ∀ d, members[i]? = some d → (g d.2 = .none ↔ d.2 = .none)) (start : Nat) :
    firstNamed name start (members.modify i fun d => (d.1, g d.2)) =
      (firstNamed name start members).modify (start + i) g := by
  induction members generalizing i start with
  | nil => rw [List.modify_nil]; rfl
  | cons d members ih =>
    obtain ⟨_ | identifier, w⟩ := d
    · cases i <;> rfl
    · cases i with
      | zero =>
        have hw : g w = .none ↔ w = .none := hg (some identifier, w) rfl
        have hrest : firstNamed name (start + 1) members =
            (firstNamed name (start + 1) members).modify start g := by
          cases hnamed : firstNamed name (start + 1) members with
          | undefined => rfl
          | missing => rfl
          | named j w' =>
            obtain ⟨-, hle, -, -⟩ := firstNamed_eq hnamed
            rw [Named.modify, if_neg (by omega)]
        rw [List.modify_zero_cons, Nat.add_zero]
        by_cases hnone : w = .none
        · rw [hw.mpr hnone, hnone, firstNamed_none]
          exact hrest
        · rw [firstNamed_cons (mt hw.mp hnone), firstNamed_cons hnone]
          split
          · simp [Named.modify]
          · exact hrest
      | succ i =>
        have hrest := ih (i := i) (fun d hd => hg d hd) (start + 1)
        have hadd : start + 1 + i = start + (i + 1) := by omega
        rw [hadd] at hrest
        rw [List.modify_succ_cons]
        by_cases hnone : w = .none
        · rw [hnone, firstNamed_none, firstNamed_none]
          exact hrest
        · rw [firstNamed_cons hnone, firstNamed_cons hnone]
          split
          · rw [Named.modify, if_neg (by omega)]
          · exact hrest

theorem valueSearch_update {seg : List UInt8} {rest : List (List UInt8)}
    (hfind : v.find path = some node) (hkeeps : Keeps node (f node)) :
    valueSearch (v.update f path) seg rest = valueSearch v seg rest := by
  induction path generalizing v seg rest with
  | nil =>
    cases hfind
    rw [DataValue.update]
    cases node with
    | basic t v =>
      cases hf : f (.basic t v) <;> rw [hf] at hkeeps <;> simp_all [Keeps, valueSearch]
    | basicArray t size items =>
      cases hf : f (.basicArray t size items) <;> rw [hf] at hkeeps <;>
        simp_all [Keeps, valueSearch]
    | none => cases hkeeps
    | nullArray => cases hkeeps
    | emptyArray type size => cases hkeeps
    | structArray size items => cases hkeeps
    | struct members => cases hkeeps
  | cons step path ih =>
    obtain ⟨members, i, d, rfl, rfl, hd, hfind'⟩ |
      ⟨size, items, members, i, j, d, rfl, rfl, hi, hj, hfind'⟩ := find_cons hfind
    · rw [DataValue.update]
      cases rest with
      | nil => simp [valueSearch]
      | cons part rest =>
        have hg : ∀ d', members[i]? = some d' → (d'.2.update f path = .none ↔ d'.2 = .none) := by
          intro d' hd'
          rw [hd] at hd'
          cases hd'
          exact update_eq_none_iff hfind' hkeeps
        have hnamed := @firstNamed_modify (segment part).name (DataValue.update f · path) members i
          hg 0
        conv => lhs; unfold valueSearch
        conv => rhs; unfold valueSearch
        simp only [hnamed]
        cases hfound : firstNamed (segment part).name 0 members with
        | undefined => rfl
        | missing => rfl
        | named j w =>
          obtain ⟨identifier, -, hget, -⟩ := firstNamed_eq hfound
          simp only [Named.modify]
          by_cases hj : j = 0 + i
          · rw [Nat.sub_zero, hj, Nat.zero_add, hd] at hget
            cases hget
            rw [if_pos hj, ih hfind']
          · rw [if_neg hj]
    · rw [DataValue.update]
      conv => lhs; unfold valueSearch
      conv => rhs; unfold valueSearch
      by_cases hn : i = (segment seg).arrayIndex.toNat
      · subst hn
        have hg : ∀ d', members[j]? = some d' → (d'.2.update f path = .none ↔ d'.2 = .none) := by
          intro d' hd'
          rw [hj] at hd'
          cases hd'
          exact update_eq_none_iff hfind' hkeeps
        have hnamed := @firstNamed_modify (segment (rest.headD [])).name (DataValue.update f · path)
          members j hg 0
        simp only [List.getElem?_modify_eq, hi, Option.map_eq_map, Option.map_some, hnamed]
        cases hfound : firstNamed (segment (rest.headD [])).name 0 members with
        | undefined => rfl
        | missing => rfl
        | named k w =>
          obtain ⟨identifier, -, hget, -⟩ := firstNamed_eq hfound
          simp only [Named.modify]
          by_cases hk : k = 0 + j
          · rw [Nat.sub_zero, hk, Nat.zero_add, hj] at hget
            cases hget
            rw [if_pos hk, ih hfind']
          · rw [if_neg hk]
      · have hget : ∀ g : Option (List Data) → Option (List Data),
            (items.modify i g)[(segment seg).arrayIndex.toNat]? =
              items[(segment seg).arrayIndex.toNat]? := by
          intro g
          simp [hn]
        simp only [hget]

end Kept

/-! ## The properties -/

def Names (properties : List Data) (key : List UInt8) (path : List Step) (k : Nat) : Prop :=
  ∃ i d path', path = .member i :: path' ∧ properties[i]? = some d ∧ Spells d (segments key) path' k

section Properties

variable {properties : List Data} {key : List UInt8} {path : List Step} {index : Int}
  {node : DataValue} {f : DataValue → DataValue}

theorem segments_ne_nil (key : List UInt8) : segments key ≠ [] := by
  cases key with
  | nil => simp [segments]
  | cons b key =>
    rw [segments]
    split
    · simp
    · split <;> simp

theorem segments_last (h : key ≠ []) : (segments key).getLast? ≠ some [] := by
  induction key with
  | nil => exact absurd rfl h
  | cons b key ih =>
    rw [segments]
    split
    · rename_i hdot
      have hrest := ih hdot.2
      cases hparts : segments key with
      | nil => exact absurd hparts (segments_ne_nil key)
      | cons part parts =>
        rw [hparts] at hrest
        rwa [List.getLast?_cons_cons]
    · cases key with
      | nil => simp [segments]
      | cons b' key =>
        have hrest := ih (by simp)
        cases hparts : segments (b' :: key) with
        | nil => simp
        | cons part parts =>
          rw [hparts] at hrest
          cases parts with
          | nil => simp
          | cons part' parts =>
            rw [List.getLast?_cons_cons] at hrest ⊢
            exact hrest

theorem dataSearch_found {d : Data} (h : dataSearch d key = .found path index) :
    ∃ identifier seg rest, d.1 = some identifier ∧ segments key = seg :: rest ∧
      identifier.val = (segment seg).name ∧ valueSearch d.2 seg rest = .found path index := by
  unfold dataSearch at h
  split at h
  next seg rest identifier hparts hd =>
    split at h
    next hname => exact ⟨identifier, seg, rest, hd, hparts, hname, h⟩
    next => cases h
  next => cases h

theorem propertyLoop_found {start : Nat}
    (h : propertyLoop key start properties = .found path index) :
    ∃ i d path', path = .member (start + i) :: path' ∧ properties[i]? = some d ∧
      dataSearch d key = .found path' index := by
  induction properties generalizing start with
  | nil => cases h
  | cons d properties ih =>
    rw [propertyLoop] at h
    split at h
    next => cases h
    next =>
      obtain ⟨i, d', path', hpath, hd, hsearch⟩ := ih h
      exact ⟨i + 1, d', path', by rw [hpath, Nat.add_assoc, Nat.add_comm 1 i], hd, hsearch⟩
    next path' index' hsearch =>
      cases h
      exact ⟨0, d, path', rfl, rfl, hsearch⟩

theorem propertySearch_found (h : propertySearch properties key = .found path index) :
    ∃ i d path' node, path = .member i :: path' ∧ properties[i]? = some d ∧
      (root properties).find path = some node ∧ d.2.find path' = some node ∧
      (node.Settable index → (node.cell index.toNat).isSome ∧
        (Names properties key path index.toNat ↔
          (∀ part ∈ segments key, Written part) ∧ UsesUp path (segments key))) := by
  unfold propertySearch at h
  split at h
  · cases h
  rename_i hkey
  obtain ⟨i, d, path', hpath, hd, hsearch⟩ := propertyLoop_found h
  rw [Nat.zero_add] at hpath
  obtain ⟨identifier, seg, rest, hid, hparts, hname, hvalue⟩ := dataSearch_found hsearch
  have hlast : rest.getLast? ≠ some [] := by
    intro hnil
    refine segments_last hkey ?_
    rw [hparts]
    cases rest with
    | nil => cases hnil
    | cons part rest => rwa [List.getLast?_cons_cons]
  obtain ⟨node, hfind, hset⟩ := valueSearch_found hlast hvalue
  refine ⟨i, d, path', node, hpath, hd, ?_, hfind, fun hs => ?_⟩
  · rw [hpath]
    simp [DataValue.find, hd, hfind]
  · obtain ⟨hcell, hiff⟩ := hset hs
    refine ⟨hcell, ?_⟩
    rw [hparts, hpath]
    refine Iff.trans ?_ (hiff identifier hname)
    constructor
    · rintro ⟨i', d', path'', heq, hd', hspells⟩
      cases heq
      rw [hd] at hd'
      cases hd'
      obtain ⟨did, v⟩ := d
      cases hid
      rwa [hparts] at hspells
    · intro hspells
      obtain ⟨did, v⟩ := d
      cases hid
      exact ⟨i, _, path', rfl, hd, by rw [hparts]; exact hspells⟩

theorem propertyLoop_modify {g : Data → Data} {i : Nat}
    (h : ∀ d, properties[i]? = some d → dataSearch (g d) key = dataSearch d key) (start : Nat) :
    propertyLoop key start (properties.modify i g) = propertyLoop key start properties := by
  induction properties generalizing i start with
  | nil => rw [List.modify_nil]
  | cons d properties ih =>
    cases i with
    | zero => rw [List.modify_zero_cons, propertyLoop, propertyLoop, h d rfl]
    | succ i =>
      rw [List.modify_succ_cons, propertyLoop, propertyLoop, ih (fun d hd => h d hd)]

theorem propertySearch_update (hfind : (root properties).find path = some node)
    (hkeeps : Keeps node (f node)) (key : List UInt8) :
    propertySearch (updateProperties f properties path) key = propertySearch properties key := by
  unfold propertySearch
  split
  · rfl
  cases path with
  | nil => rfl
  | cons step path =>
    cases step with
    | element i j => rfl
    | member i =>
      rw [updateProperties]
      apply propertyLoop_modify
      intro d hd
      have hfind' : d.2.find path = some node := by
        simpa [DataValue.find, hd] using hfind
      obtain ⟨identifier, v⟩ := d
      unfold dataSearch
      cases segments key <;> cases identifier <;> simp [valueSearch_update hfind' hkeeps]

end Properties

end AliyunIot.Dm.Shadow
