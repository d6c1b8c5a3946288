import AliyunIot.Dm.ShadowLens

/-!
# The laws of setting and getting

What a set and a get of one entry do, and from it when the two functions by key keep the laws of a
lens (`Lawful`): exactly for the keys that are `Careful`.
-/

namespace AliyunIot.Dm.Shadow

open Libc State

theorem modify_of_fixed {α : Type} {f : α → α} {l : List α} {i : Nat} {a : α} (h : l[i]? = some a)
    (ha : f a = a) : l.modify i f = l := by
  apply List.ext_getElem?
  intro j
  by_cases hj : i = j
  · subst hj
    rw [List.getElem?_modify_eq, h]
    exact congrArg some ha
  · rw [List.getElem?_modify_ne f l hj]

/-! ## One entry -/

/-- The index leads past the storage of an array. -/
def DataValue.Dangling : DataValue → Int → Prop
  | .emptyArray (.basic _) size, index => ¬ OutOfRange size index
  | .basicArray _ size items, index => ¬ OutOfRange size index ∧ items.length ≤ index.toNat
  | _, _ => False

/-- The content of a leaf that holds the value. -/
def View.cell (value : View) : (t : BasicType) → t.Cell
  | .int | .enum | .bool => value.int
  | .float => value.float
  | .double => value.double
  | .text | .date => some value.text

def View.Representable (value : View) : BasicType → Prop
  | .enum => 0 ≤ value.int
  | .bool => value.int = 0 ∨ value.int = 1
  | .text | .date => (0 : UInt8) ∉ value.text
  | _ => True

/-- A value of the type that the leaf does not hold. -/
def Leaf.other : Leaf → View
  | ⟨.int, v⟩ | ⟨.enum, v⟩ | ⟨.bool, v⟩ =>
    { View.null with int := if v = (0 : Int32) then 1 else 0 }
  | ⟨.float, v⟩ => { View.null with float := if v = (0 : UInt32) then 1 else 0 }
  | ⟨.double, v⟩ => { View.null with double := if v = (0 : UInt64) then 1 else 0 }
  | ⟨.text, v⟩ | ⟨.date, v⟩ =>
    { View.null with text := if v = some ([] : List UInt8) then [1] else [] }

section Entry

variable {v w : DataValue} {index : Int} {old : Leaf} {value : View} {malloc : Bool} {t : BasicType}

theorem Leaf.other_representable (old : Leaf) : old.other.Representable old.type := by
  obtain ⟨t, v⟩ := old
  cases t <;> simp only [View.Representable, Leaf.other] <;> split <;> simp

theorem Leaf.other_ne (old : Leaf) : old.other.cell old.type ≠ old.cell := by
  obtain ⟨t, v⟩ := old
  cases t <;> simp only [View.cell, Leaf.other] <;> split <;> simp_all <;> exact Ne.symm ‹_›

theorem funcSet_success : (funcSet value true t).1 = success := by
  cases t <;> rfl

theorem funcArraySet_success : (funcArraySet value true t).1 = success := by
  cases t <;> rfl

theorem textSet_cell {missing : Int} (hmissing : missing ≠ success)
    (h : (if malloc then (success, some value.text) else (missing, none)).1 = success) :
    (if malloc then (success, some value.text) else (missing, none)).2 = some value.text := by
  cases malloc with
  | false => exact absurd h hmissing
  | true => rfl

theorem funcSet_cell (h : (funcSet value malloc t).1 = success) (hv : value.Representable t) :
    (funcSet value malloc t).2 = value.cell t := by
  cases t with
  | enum => simp only [View.Representable] at hv; simp [funcSet, View.cell, Int32.not_lt.mpr hv]
  | bool => obtain hv | hv := hv <;> simp [funcSet, View.cell, hv]
  | text => exact textSet_cell (by decide) h
  | date => exact textSet_cell (by decide) h
  | _ => rfl

theorem funcArraySet_cell (h : (funcArraySet value malloc t).1 = success) :
    (funcArraySet value malloc t).2 = value.cell t := by
  cases t with
  | text => exact textSet_cell (by decide) h
  | date => exact textSet_cell (by decide) h
  | _ => rfl

theorem textGet_of_no_zero {text : List UInt8} (missing : Int) (h : (0 : UInt8) ∉ text) :
    textGet missing true (some text) = .ok (some text) := by
  have hself : text.takeWhile (· ≠ 0) = text := by
    rw [List.takeWhile_eq_self_iff]
    intro b hb
    rw [decide_eq_true_eq]
    rintro rfl
    exact h hb
  simp only [textGet, if_true, hself]

theorem funcGet_cell (missing : Int) (hv : value.Representable t) :
    funcGet missing true t (value.cell t) = .ok (value.cell t) := by
  cases t with
  | text => exact textGet_of_no_zero missing hv
  | date => exact textGet_of_no_zero missing hv
  | _ => rfl

theorem dataSet_of_dangling (h : v.Dangling index) : dataSet v index value malloc = none := by
  cases v with
  | emptyArray type size =>
    cases type with
    | basic t => rw [dataSet, if_neg h]
    | _ => cases h
  | basicArray t size items => rw [dataSet, if_neg h.1, if_neg (Nat.not_lt.mpr h.2)]
  | _ => cases h

theorem dataSet_of_not_settable (hset : ¬ v.Settable index) (hdangling : ¬ v.Dangling index)
    (value : View) (malloc : Bool) :
    ∃ res, dataSet v index value malloc = some (res, v) ∧ res ≠ success := by
  cases v with
  | basic t v => exact absurd trivial hset
  | emptyArray type size =>
    by_cases hrange : OutOfRange size index
    · exact ⟨userInputInvalid, if_pos hrange, by decide⟩
    · cases type with
      | basic t => exact absurd hrange hdangling
      | _ => exact ⟨failReturn, if_neg hrange, by decide⟩
  | basicArray t size items =>
    by_cases hrange : OutOfRange size index
    · exact ⟨userInputInvalid, if_pos hrange, by decide⟩
    · by_cases hlt : index.toNat < items.length
      · exact absurd ⟨hrange, hlt⟩ hset
      · exact absurd ⟨hrange, Nat.not_lt.mp hlt⟩ hdangling
  | structArray size items =>
    by_cases hrange : OutOfRange size index
    · exact ⟨userInputInvalid, if_pos hrange, by decide⟩
    · exact ⟨failReturn, if_neg hrange, by decide⟩
  | _ => exact ⟨_, rfl, by decide⟩

structure Sets (v : DataValue) (index : Int) (old : Leaf) (value : View) (res : Int)
    (w : DataValue) : Prop where
  keeps : Keeps v w
  settable : w.Settable index
  others : ∀ k ≠ index.toNat, w.cell k = v.cell k
  stored : res = success → value.Representable old.type →
    w.cell index.toNat = some ⟨old.type, value.cell old.type⟩

theorem dataSet_of_settable (hset : v.Settable index) (hcell : v.cell index.toNat = some old)
    (value : View) (malloc : Bool) :
    ∃ res w, dataSet v index value malloc = some (res, w) ∧ (malloc = true → res = success) ∧
      Sets v index old value res w := by
  cases v with
  | basic t c =>
    have hzero : index.toNat = 0 := by
      by_contra hne
      obtain ⟨k, hk⟩ := Nat.exists_eq_succ_of_ne_zero hne
      rw [hk] at hcell
      cases hcell
    rw [hzero] at hcell
    cases hcell
    refine ⟨_, _, rfl, ?_, rfl, trivial, ?_, ?_⟩
    · rintro rfl
      exact funcSet_success
    · intro k hk
      rw [hzero] at hk
      obtain ⟨k', rfl⟩ := Nat.exists_eq_succ_of_ne_zero hk
      rfl
    · intro hres hv
      rw [hzero]
      simp [DataValue.cell, funcSet_cell hres hv]
  | basicArray t size items =>
    obtain ⟨hrange, hlt⟩ := hset
    simp only [DataValue.cell, List.getElem?_eq_getElem hlt, Option.map_some,
      Option.some.injEq] at hcell
    subst hcell
    refine ⟨_, .basicArray t size (items.set index.toNat (funcArraySet value malloc t).2),
      by rw [dataSet, if_neg hrange, if_pos hlt], ?_, ⟨rfl, rfl, by simp⟩,
      ⟨hrange, by simpa using hlt⟩, ?_, ?_⟩
    · rintro rfl
      exact funcArraySet_success
    · intro k hk
      simp [DataValue.cell, List.getElem?_set_ne (Ne.symm hk)]
    · intro hres hv
      simp [DataValue.cell, hlt, funcArraySet_cell hres]
  | _ => cases hset

theorem dataGet_of_settable (hset : w.Settable index)
    (hcell : w.cell index.toNat = some ⟨t, value.cell t⟩) (hv : value.Representable t) :
    dataGet w index true = some (.ok ⟨t, value.cell t⟩) := by
  cases w with
  | basic t' c =>
    unfold DataValue.cell at hcell
    split at hcell
    next heq _ =>
      cases heq
      simp only [Option.some.injEq] at hcell
      cases hcell
      simp [dataGet, funcGet_cell failReturn hv, Except.map]
    next heq => cases heq
    next => cases hcell
  | basicArray t' size items =>
    obtain ⟨hrange, hlt⟩ := hset
    simp only [DataValue.cell, Option.map_eq_some_iff] at hcell
    obtain ⟨c, hc, heq⟩ := hcell
    cases heq
    simp [dataGet, hrange, hc, funcGet_cell userInputInvalid hv, Except.map]
  | _ => cases hset

end Entry

/-! ## By key -/

/-- What a set and a get by a key have to do. A key names a leaf if it is made of names and decimal
indices (`Names`) and the leaf exists. -/
structure Lawful (properties : List Data) (key : List UInt8) : Prop where
  defined : ∀ value malloc, dmShwSetPropertyValue properties key value malloc ≠ none
  lens : ∀ value malloc properties',
    dmShwSetPropertyValue properties key (some value) malloc = some (success, properties') →
    ∃ path k old, Names properties key path k ∧ leafAt (root properties) path k = some old ∧
      (∀ path' k', ¬ (path' = path ∧ k' = k) →
        leafAt (root properties') path' k' = leafAt (root properties) path' k') ∧
      (value.Representable old.type →
        dmShwGetPropertyValue properties' key true = some (.ok ⟨old.type, value.cell old.type⟩))
  rejected : (∀ path k, Names properties key path k → leafAt (root properties) path k = none) →
    ∀ value malloc, ∃ res,
      dmShwSetPropertyValue properties key value malloc = some (res, properties) ∧ res ≠ success

/-- The search stays inside the tree, and a leaf that it finds is one that the key names: each
index is a decimal number behind a name, nothing follows an element of an array of a basic type,
and one part follows an element of an array of structs. -/
structure Careful (properties : List Data) (key : List UInt8) : Prop where
  inside : propertySearch properties key ≠ .undefined
  stored : ∀ path index node, propertySearch properties key = .found path index →
    (root properties).find path = some node → ¬ node.Dangling index
  written : ∀ path index node, propertySearch properties key = .found path index →
    (root properties).find path = some node → node.Settable index →
    (∀ part ∈ segments key, Written part) ∧ UsesUp path (segments key)

section Key

variable {properties : List Data} {key : List UInt8} {path : List Step} {index : Int}
  {node : DataValue} {v : DataValue}

theorem update_self (h : v.find path = some node) : v.update (fun _ => node) path = v := by
  induction path generalizing v with
  | nil =>
    cases h
    rw [DataValue.update]
  | cons step path ih =>
    obtain ⟨members, i, d, rfl, rfl, hd, hfind⟩ |
      ⟨size, items, members, i, j, d, rfl, rfl, hi, hj, hfind⟩ := find_cons h
    · rw [DataValue.update, modify_of_fixed hd (by rw [ih hfind])]
    · rw [DataValue.update, modify_of_fixed hi]
      rw [Option.map_some, modify_of_fixed hj (by rw [ih hfind])]

theorem root_updateProperties {f : DataValue → DataValue} {i : Nat} :
    root (updateProperties f properties (.member i :: path)) =
      (root properties).update f (.member i :: path) := by
  rw [updateProperties, DataValue.update]

theorem set_of_found (hsearch : propertySearch properties key = .found path index)
    (hfind : (root properties).find path = some node) (value : Option View) (malloc : Bool) :
    dmShwSetPropertyValue properties key value malloc =
      (dataSet node index (value.getD View.null) malloc).map fun (res, data') =>
        (if res = success then success else dmTslPropertySetFailed,
          updateProperties (fun _ => data') properties path) := by
  simp only [dmShwSetPropertyValue, hsearch, hfind]

theorem get_of_found (hsearch : propertySearch properties key = .found path index)
    (hfind : (root properties).find path = some node) {leaf : Leaf}
    (hget : dataGet node index true = some (.ok leaf)) :
    dmShwGetPropertyValue properties key true = some (.ok leaf) := by
  simp [dmShwGetPropertyValue, hsearch, hfind, hget]

theorem set_cases (hsearch : propertySearch properties key = .found path index)
    (hdangling : ∀ node, (root properties).find path = some node → ¬ node.Dangling index) :
    (∀ value malloc, ∃ res, dmShwSetPropertyValue properties key value malloc =
      some (res, properties) ∧ res ≠ success) ∨
    ∃ i path' node old, path = .member i :: path' ∧ (root properties).find path = some node ∧
      node.Settable index ∧ node.cell index.toNat = some old := by
  obtain ⟨i, d, path', node, hpath, hd, hfind, hfind', hset⟩ := propertySearch_found hsearch
  by_cases hs : node.Settable index
  · obtain ⟨old, hold⟩ := Option.isSome_iff_exists.mp (hset hs).1
    exact .inr ⟨i, path', node, old, hpath, hfind, hs, hold⟩
  · left
    intro value malloc
    obtain ⟨res, hdata, hres⟩ :=
      dataSet_of_not_settable hs (hdangling node hfind) (value.getD View.null) malloc
    refine ⟨dmTslPropertySetFailed, ?_, by decide⟩
    have hsame : updateProperties (fun _ => node) properties path = properties := by
      rw [hpath, updateProperties, modify_of_fixed hd (by rw [update_self hfind'])]
    simp only [set_of_found hsearch hfind, hdata, Option.map_some, if_neg hres, hsame]

theorem find_updateProperties {i : Nat} {w : DataValue}
    (hfind : (root properties).find (.member i :: path) = some node) :
    (root (updateProperties (fun _ => w) properties (.member i :: path))).find
      (.member i :: path) = some w := by
  rw [root_updateProperties]
  exact find_update hfind

section Leaf

variable {i : Nat} {old : Leaf} {value : View} {malloc : Bool} {res : Int} {w : DataValue}
  (hfind : (root properties).find (.member i :: path) = some node)
  (hsets : Sets node index old value res w)
include hfind hsets

theorem leafAt_of_sets {path' : List Step} {k' : Nat}
    (hne : ¬ (path' = .member i :: path ∧ k' = index.toNat)) :
    leafAt (root (updateProperties (fun _ => w) properties (.member i :: path))) path' k' =
      leafAt (root properties) path' k' := by
  obtain ⟨hleafy, hleafy'⟩ := hsets.keeps.leafy
  rw [root_updateProperties]
  exact leafAt_update hfind hleafy hleafy' hsets.others path' k' hne

theorem get_of_sets (hsearch : propertySearch properties key = .found (.member i :: path) index)
    (hres : res = success) (hv : value.Representable old.type) :
    dmShwGetPropertyValue (updateProperties (fun _ => w) properties (.member i :: path)) key true =
      some (.ok ⟨old.type, value.cell old.type⟩) := by
  have hsearch' : propertySearch (updateProperties (fun _ => w) properties (.member i :: path)) key
      = .found (.member i :: path) index := by
    rw [propertySearch_update hfind hsets.keeps, hsearch]
  exact get_of_found hsearch' (find_updateProperties hfind)
    (dataGet_of_settable hsets.settable (hsets.stored hres hv) hv)

end Leaf

theorem lawful_of_careful (h : Careful properties key) : Lawful properties key := by
  cases hsearch : propertySearch properties key with
  | undefined => exact absurd hsearch h.inside
  | failed =>
    have hset : ∀ value malloc, dmShwSetPropertyValue properties key value malloc =
        some (failReturn, properties) := by
      intro value malloc
      simp only [dmShwSetPropertyValue, hsearch]
    refine ⟨fun value malloc => by simp [hset], fun value malloc properties' hs => ?_,
      fun _ value malloc => ⟨failReturn, hset value malloc, by decide⟩⟩
    rw [hset] at hs
    simp at hs
  | found path index =>
    obtain hrefused | ⟨i, path', node, old, rfl, hfind, hs, hold⟩ :=
      set_cases hsearch fun node => h.stored path index node hsearch
    · refine ⟨fun value malloc => ?_, fun value malloc properties' hset => ?_,
        fun _ => hrefused⟩
      · obtain ⟨res, hset, -⟩ := hrefused value malloc
        simp [hset]
      · obtain ⟨res, hset', hne⟩ := hrefused (some value) malloc
        rw [hset'] at hset
        cases hset
        exact absurd rfl hne
    · obtain ⟨_, _, _, node', _, _, hfind', _, hnames⟩ := propertySearch_found hsearch
      rw [hfind] at hfind'
      cases hfind'
      have hnamed := (hnames hs).2.mpr (h.written _ _ _ hsearch hfind hs)
      have hleaf : leafAt (root properties) (.member i :: path') index.toNat = some old := by
        rw [leafAt, hfind]
        exact hold
      refine ⟨fun value malloc => ?_, fun value malloc properties' hset => ?_, fun hnone => ?_⟩
      · obtain ⟨res, w, hdata, -, -⟩ := dataSet_of_settable hs hold (value.getD View.null) malloc
        simp [set_of_found hsearch hfind, hdata]
      · obtain ⟨res, w, hdata, -, hsets⟩ := dataSet_of_settable hs hold value malloc
        rw [set_of_found hsearch hfind, Option.getD_some, hdata, Option.map_some,
          Option.some.injEq, Prod.mk.injEq] at hset
        obtain ⟨hres, rfl⟩ := hset
        have hsucc : res = success := by
          by_contra hne
          rw [if_neg hne] at hres
          exact absurd hres (by decide)
        exact ⟨_, _, old, hnamed, hleaf, fun path'' k' => leafAt_of_sets hfind hsets,
          get_of_sets hfind hsets hsearch hsucc⟩
      · rw [hnone _ _ hnamed] at hleaf
        cases hleaf

theorem careful_of_named
    (hdefined : ∀ value malloc, dmShwSetPropertyValue properties key value malloc ≠ none)
    (hnamed : ∀ value malloc properties',
      dmShwSetPropertyValue properties key (some value) malloc = some (success, properties') →
      ∃ path k, Names properties key path k ∧ ∀ path' k', ¬ (path' = path ∧ k' = k) →
        leafAt (root properties') path' k' = leafAt (root properties) path' k') :
    Careful properties key := by
  refine ⟨fun hsearch => ?_, fun path index node hsearch hfind hdangling => ?_,
    fun path index node hsearch hfind hs => ?_⟩
  · refine hdefined none true ?_
    simp only [dmShwSetPropertyValue, hsearch]
  · refine hdefined none true ?_
    rw [set_of_found hsearch hfind, dataSet_of_dangling hdangling]
    rfl
  · obtain ⟨i, _, path', node', rfl, _, hfind', _, hnames⟩ := propertySearch_found hsearch
    rw [hfind] at hfind'
    cases hfind'
    obtain ⟨hcell, hiff⟩ := hnames hs
    obtain ⟨old, hold⟩ := Option.isSome_iff_exists.mp hcell
    -- a set of another value has to be seen at the leaf
    obtain ⟨res, w, hdata, hres, hsets⟩ := dataSet_of_settable hs hold old.other true
    have hset : dmShwSetPropertyValue properties key (some old.other) true =
        some (success, updateProperties (fun _ => w) properties (.member i :: path')) := by
      simp only [set_of_found hsearch hfind, Option.getD_some, hdata, Option.map_some,
        if_pos (hres rfl)]
    obtain ⟨path'', k'', hnames', hothers⟩ := hnamed _ _ _ hset
    by_cases hsame : Step.member i :: path' = path'' ∧ index.toNat = k''
    · obtain ⟨rfl, rfl⟩ := hsame
      exact hiff.mp hnames'
    · have hleaf := hothers _ _ hsame
      rw [leafAt, find_updateProperties hfind, leafAt, hfind, Option.bind_some, Option.bind_some,
        hsets.stored (hres rfl) old.other_representable, hold, Option.some.injEq] at hleaf
      have hcell : old.other.cell old.type = old.cell := by
        obtain ⟨t, v⟩ := old
        simpa using hleaf
      exact absurd hcell old.other_ne

theorem careful_of_lawful (h : Lawful properties key) : Careful properties key :=
  careful_of_named h.defined fun value malloc properties' hset => by
    obtain ⟨path, k, _, hnames, -, hothers, -⟩ := h.lens value malloc properties' hset
    exact ⟨path, k, hnames, hothers⟩

/-- A key keeps the laws exactly if it is careful. -/
theorem lawful_iff_careful (properties : List Data) (key : List UInt8) :
    Lawful properties key ↔ Careful properties key :=
  ⟨careful_of_lawful, lawful_of_careful⟩

end Key

/-- An index that is no number is taken for 0, and one that is past the elements of an array of
structs is followed. -/
theorem set_by_bad_index :
    ¬ Lawful [(some ⟨[97], by decide⟩, .basicArray .int 2 [3, 4])] [97, 91, 120, 93] ∧
      dmShwSetPropertyValue
        [(some ⟨[97], by decide⟩, .structArray 1 [some [(some ⟨[98], by decide⟩, .basic .int 3)]])]
        [97, 91, 49, 93, 46, 98] (some ⟨5, 0, 0, []⟩) true = none := by
  constructor
  · intro h
    have hparts : segments [97, 91, 120, 93] = [[97, 91, 120, 93]] := by decide
    have hset : dmShwSetPropertyValue [(some ⟨[97], by decide⟩, .basicArray .int 2 [3, 4])]
        [97, 91, 120, 93] (some ⟨5, 0, 0, []⟩) true =
          some (success, [(some ⟨[97], by decide⟩, .basicArray .int 2 [5, 4])]) := by
      have hseg : segment [97, 91, 120, 93] = ⟨[97], 1, 0⟩ := by rfl
      simp [dmShwSetPropertyValue, propertySearch, propertyLoop, dataSearch, hparts, hseg,
        valueSearch, DataValue.find, dataSet, OutOfRange, funcArraySet, updateProperties,
        DataValue.update]
    obtain ⟨path, k, old, ⟨i, d, path', -, hd, hspells⟩, -, -⟩ := h.lens _ _ _ hset
    rw [hparts] at hspells
    cases i with
    | succ i => cases hd
    | zero =>
      cases hd
      generalize hkey : [[(97 : UInt8), 91, 120, 93]] = parts at hspells
      cases hspells with
      | name _ _ => simp at hkey
      | element _ hindex =>
        simp only [List.cons.injEq, List.cons_append, List.nil_append, and_true, true_and] at hkey
        have hmem := @List.append_cancel_right _ [120] _ _ hkey
        exact absurd (hindex.digits 120 (by simp [← hmem])) (by decide)
  · have hparts : segments [97, 91, 49, 93, 46, 98] = [[97, 91, 49, 93], [98]] := by decide
    have hseg : segment [97, 91, 49, 93] = ⟨[97], 1, 1⟩ := by rfl
    simp [dmShwSetPropertyValue, propertySearch, propertyLoop, dataSearch, hparts, hseg,
      valueSearch]

end AliyunIot.Dm.Shadow
