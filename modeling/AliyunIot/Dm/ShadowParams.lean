import AliyunIot.Dm.ShadowLaws
import AliyunIot.Dm.ShadowLookup

/-!
# Parameters of events and services

The setters and getters of `dm_shadow.c` for the outputs of an event and for the inputs and outputs
of a service. The two searches that they share walk the parameters the way a property is searched
for, and return success also at the end of the walk, without an entry. So a call keeps what it
promises exactly where the walk ends at an entry, or is not made (`parametersLaw_iff`).
-/

namespace AliyunIot.Dm.Shadow

open State
open Tsl (DmShw Event Service Table)

abbrev dmTslEventNotExist : Int := -7
abbrev dmTslEventSetFailed : Int := -10
abbrev dmTslEventGetFailed : Int := -11
abbrev dmTslServiceNotExist : Int := -5
abbrev dmTslServiceSetFailed : Int := -12
abbrev dmTslServiceGetFailed : Int := -13

/-! ## The searches -/

/-- What a search for a parameter gives: no result, an error, or success and where its pointer
leads to, which is `NULL` before it. -/
inductive Searched where
  | undefined
  | failed (res : Int)
  | succeeded (data : Option (List Step × Int))

def reached (table : Table Data) : List Data := table.entries.take table.number

/-- The loop that the searches share. Past the storage there is nothing to search; the first entry
of a storage that is `NULL` is `NULL` itself, and passed over. -/
def parameterLoop (table : Table Data) (key : List UInt8) : Searched :=
  match propertySearch (reached table) key with
  | .undefined => .undefined
  | .found path index => .succeeded (some (path, index))
  | .failed =>
    if table.entries.length < table.number ∧ ¬ (table.storage = none ∧ table.number = 1) then
      .undefined
    else .succeeded none

def eventOutputSearch (table : Table Data) (key : List UInt8) : Searched :=
  if table.storage = none ∨ table.number = 0 ∨ key = [] then .failed userInputInvalid
  else parameterLoop table key

/-- `_dm_shw_service_input_output_search`, of the table that its type stands for. -/
def serviceInputOutputSearch (table : Table Data) (key : List UInt8) : Searched :=
  parameterLoop table key

/-! ## The calls -/

/-- What has parameters; of a service, `dm_shw_data_target_e` says which ones. -/
inductive Owner where
  | eventOutput
  | serviceInput
  | serviceOutput

namespace Owner

def search (shadow : DmShw) : Owner → List UInt8 → Lookup
  | .eventOutput => eventSearch shadow
  | _ => serviceSearch shadow

/-- The parameters of the `i`-th event or service. -/
def table (shadow : DmShw) (i : Nat) : Owner → Table Data
  | .eventOutput => (shadow.events.entries[i]?.map Event.outputDatas).getD .empty
  | .serviceInput => (shadow.services.entries[i]?.map Service.inputDatas).getD .empty
  | .serviceOutput => (shadow.services.entries[i]?.map Service.outputDatas).getD .empty

def parameterSearch : Owner → Table Data → List UInt8 → Searched
  | .eventOutput => eventOutputSearch
  | _ => serviceInputOutputSearch

def notExist : Owner → Int
  | .eventOutput => dmTslEventNotExist
  | _ => dmTslServiceNotExist

def setFailed : Owner → Int
  | .eventOutput => dmTslEventSetFailed
  | _ => dmTslServiceSetFailed

def getFailed : Owner → Int
  | .eventOutput => dmTslEventGetFailed
  | _ => dmTslServiceGetFailed

end Owner

def mapStorage {α : Type} (f : List α → List α) (table : Table α) : Table α :=
  { table with storage := table.storage.map f }

/-- The shadow with other parameters of its `i`-th event or service. -/
def Owner.modify (shadow : DmShw) (i : Nat) (f : Table Data → Table Data) : Owner → DmShw
  | .eventOutput =>
    { shadow with events := mapStorage (·.modify i fun event =>
      { event with outputDatas := f event.outputDatas }) shadow.events }
  | .serviceInput =>
    { shadow with services := mapStorage (·.modify i fun service =>
      { service with inputDatas := f service.inputDatas }) shadow.services }
  | .serviceOutput =>
    { shadow with services := mapStorage (·.modify i fun service =>
      { service with outputDatas := f service.outputDatas }) shadow.services }

/-- What a key leads to: no result, an error, or an event or service and the rest of the key. -/
inductive Addressed where
  | undefined
  | refused (res : Int)
  | parameters (i : Nat) (rest : List UInt8)

/-- The beginning that the calls share. -/
def Owner.addressed (owner : Owner) (shadow : DmShw) (key : List UInt8) : Addressed :=
  if key = [] then .refused userInputInvalid
  else
    match dmUtilsMemtok 46 key with
    | none => .refused failReturn
    | some offset =>
      match owner.search shadow (key.take offset) with
      | .outside => .undefined
      | .failed _ => .refused owner.notExist
      | .found i => .parameters i (key.drop (offset + 1))

section Calls

variable (owner : Owner) (shadow : DmShw) (key : List UInt8)

/-- A set of a parameter: the result and the shadow after it. -/
def Owner.set (value : Option View) (malloc : Bool) : Option (Int × DmShw) :=
  match owner.addressed shadow key with
  | .undefined => none
  | .refused res => some (res, shadow)
  | .parameters i rest =>
    match owner.parameterSearch (owner.table shadow i) rest with
    | .undefined | .succeeded none => none
    | .failed _ => some (owner.notExist, shadow)
    | .succeeded (some (path, index)) =>
      match (root (reached (owner.table shadow i))).find path with
      | none => none
      | some data =>
        (dataSet data index (value.getD View.null) malloc).map fun (res, data') =>
          (if res = success then success else owner.setFailed,
            owner.modify shadow i
              (mapStorage (updateProperties (fun _ => data') · path)))

def Owner.get (malloc : Bool) : Option (Except Int Leaf) :=
  match owner.addressed shadow key with
  | .undefined => none
  | .refused res => some (.error res)
  | .parameters i rest =>
    match owner.parameterSearch (owner.table shadow i) rest with
    | .undefined | .succeeded none => none
    | .failed _ => some (.error owner.notExist)
    | .succeeded (some (path, index)) =>
      match (root (reached (owner.table shadow i))).find path with
      | none => none
      | some data =>
        (dataGet data index malloc).map fun
          | .ok leaf => .ok leaf
          | .error _ => .error owner.getFailed

end Calls

def dmShwSetEventOutputValue := Owner.set .eventOutput

def dmShwGetEventOutputValue := Owner.get .eventOutput

/-- `dm_shw_data_target_e`. -/
inductive DataTarget where
  | serviceInputData
  | serviceOutputData

def DataTarget.owner : DataTarget → Owner
  | .serviceInputData => .serviceInput
  | .serviceOutputData => .serviceOutput

def dmShwSetServiceInputOutputValue (type : DataTarget) := type.owner.set

def dmShwGetServiceInputOutputValue (type : DataTarget) := type.owner.get

/-! ## What the calls promise -/

/-- A parameter of the table has the name of the first part of the key. -/
def HasParameter (table : Table Data) (rest : List UInt8) : Prop :=
  ∃ identifier v, (some identifier, v) ∈ reached table ∧
    identifier.val = (segment ((segments rest).headD [])).name

def NamesParameter (owner : Owner) (shadow : DmShw) (key : List UInt8) : Prop :=
  ∃ i rest path k old, owner.addressed shadow key = .parameters i rest ∧
    Names (reached (owner.table shadow i)) rest path k ∧
    leafAt (root (reached (owner.table shadow i))) path k = some old

/-- A search without a parameter of the name fails, and one that succeeds has found an entry; the
calls return, and a key that names no value is an error that leaves the shadow as it is; a value
that is set is the one that the key names, and one that is got has a name. -/
structure ParametersLaw (owner : Owner) (shadow : DmShw) (key : List UInt8) : Prop where
  searched : ∀ i rest, owner.addressed shadow key = .parameters i rest →
    owner.parameterSearch (owner.table shadow i) rest ≠ .succeeded none ∧
      (¬ HasParameter (owner.table shadow i) rest →
        ∃ res, owner.parameterSearch (owner.table shadow i) rest = .failed res ∧ res ≠ success)
  setReturns : ∀ value malloc, owner.set shadow key value malloc ≠ none
  getReturns : ∀ malloc, owner.get shadow key malloc ≠ none
  unknown : ¬ NamesParameter owner shadow key → ∀ value malloc,
    (∃ res, owner.set shadow key value malloc = some (res, shadow) ∧ res ≠ success) ∧
      ∃ res, owner.get shadow key malloc = some (.error res) ∧ res ≠ success
  set : ∀ value malloc shadow',
    owner.set shadow key (some value) malloc = some (success, shadow') →
    ∃ i rest path k old, owner.addressed shadow key = .parameters i rest ∧
      Names (reached (owner.table shadow i)) rest path k ∧
      leafAt (root (reached (owner.table shadow i))) path k = some old ∧
      ∀ path' k', ¬ (path' = path ∧ k' = k) →
        leafAt (root (reached (owner.table shadow' i))) path' k' =
          leafAt (root (reached (owner.table shadow i))) path' k'
  got : ∀ malloc leaf, owner.get shadow key malloc = some (.ok leaf) →
    NamesParameter owner shadow key

/-- `_dm_shw_data_search` takes the key for one of the parameters and for none in front of it, and
what it finds there is named properly, as it has to be for a property. -/
def Leads (datas : List Data) (rest : List UInt8) : Prop :=
  ∃ front d behind path index, datas = front ++ d :: behind ∧
    (∀ a ∈ front, dataSearch a rest = .failed) ∧ dataSearch d rest = .found path index ∧
    ∀ node, (root datas).find (.member front.length :: path) = some node →
      ¬ node.Dangling index ∧ (node.Settable index →
        (∀ part ∈ segments rest, Written part) ∧
          UsesUp (.member front.length :: path) (segments rest))

/-- The walk over the parameters is not made, or it ends at one of them. -/
def Reaches (owner : Owner) (shadow : DmShw) (key : List UInt8) : Prop :=
  (∃ res, owner.addressed shadow key = .refused res) ∨
    ∃ i rest, owner.addressed shadow key = .parameters i rest ∧
      (owner = .eventOutput ∧ ((owner.table shadow i).storage = none ∨
          (owner.table shadow i).number = 0) ∨
        Leads (reached (owner.table shadow i)) rest)

/-! ## The walk -/

section Walk

variable {datas : List Data} {rest : List UInt8} {path : List Step} {index : Int}

theorem propertyLoop_append {front : List Data} (hfront : ∀ a ∈ front, dataSearch a rest = .failed)
    (start : Nat) :
    propertyLoop rest start (front ++ datas) = propertyLoop rest (start + front.length) datas := by
  induction front generalizing start with
  | nil => rfl
  | cons a front ih =>
    obtain ⟨ha, hfront⟩ := List.forall_mem_cons.mp hfront
    rw [List.cons_append, propertyLoop, ha, List.length_cons]
    rw [ih hfront, Nat.add_assoc, Nat.add_comm 1]

theorem propertyLoop_found_iff {start : Nat} :
    propertyLoop rest start datas = .found path index ↔
      ∃ front d behind path', datas = front ++ d :: behind ∧
        (∀ a ∈ front, dataSearch a rest = .failed) ∧ dataSearch d rest = .found path' index ∧
        path = .member (start + front.length) :: path' := by
  constructor
  · intro h
    induction datas generalizing start with
    | nil => cases h
    | cons d datas ih =>
      rw [propertyLoop] at h
      split at h
      next => cases h
      next hfailed =>
        obtain ⟨front, d', behind, path', rfl, hfront, hfound, rfl⟩ := ih h
        refine ⟨d :: front, d', behind, path', rfl, List.forall_mem_cons.mpr ⟨hfailed, hfront⟩,
          hfound, ?_⟩
        rw [List.length_cons, Nat.add_assoc, Nat.add_comm 1]
      next path' index' hfound =>
        cases h
        exact ⟨[], d, datas, path', rfl, fun _ h => absurd h List.not_mem_nil, hfound, rfl⟩
  · rintro ⟨front, d, behind, path', rfl, hfront, hfound, rfl⟩
    rw [propertyLoop_append hfront, propertyLoop, hfound]

theorem propertySearch_found_iff (hrest : rest ≠ []) :
    propertySearch datas rest = .found path index ↔
      ∃ front d behind path', datas = front ++ d :: behind ∧
        (∀ a ∈ front, dataSearch a rest = .failed) ∧ dataSearch d rest = .found path' index ∧
        path = .member front.length :: path' := by
  rw [propertySearch, if_neg hrest, propertyLoop_found_iff]
  simp only [Nat.zero_add]

theorem leads_iff (hrest : rest ≠ []) : Leads datas rest ↔
    (∃ path index, propertySearch datas rest = .found path index) ∧ Careful datas rest := by
  constructor
  · rintro ⟨front, d, behind, path, index, hsplit, hfront, hfound, hnode⟩
    have hsearch := (propertySearch_found_iff hrest).mpr
      ⟨front, d, behind, path, hsplit, hfront, hfound, rfl⟩
    refine ⟨⟨_, _, hsearch⟩, fun hundef => ?_, fun path' index' node hfound' hfind => ?_,
      fun path' index' node hfound' hfind => ?_⟩
    · rw [hsearch] at hundef
      cases hundef
    · rw [hsearch] at hfound'
      cases hfound'
      exact (hnode node hfind).1
    · rw [hsearch] at hfound'
      cases hfound'
      exact (hnode node hfind).2
  · rintro ⟨⟨path, index, hsearch⟩, hcareful⟩
    obtain ⟨front, d, behind, path', hsplit, hfront, hfound, rfl⟩ :=
      (propertySearch_found_iff hrest).mp hsearch
    exact ⟨front, d, behind, path', index, hsplit, hfront, hfound, fun node hfind =>
      ⟨hcareful.stored _ _ _ hsearch hfind, hcareful.written _ _ _ hsearch hfind⟩⟩

theorem hasParameter_of_found {table : Table Data} (hrest : rest ≠ [])
    (h : propertySearch (reached table) rest = .found path index) : HasParameter table rest := by
  obtain ⟨front, d, behind, path', hsplit, -, hfound, -⟩ := (propertySearch_found_iff hrest).mp h
  obtain ⟨identifier, seg, parts, hid, hparts, hname, -⟩ := dataSearch_found hfound
  obtain ⟨did, v⟩ := d
  cases hid
  refine ⟨identifier, v, ?_, ?_⟩
  · rw [hsplit]
    simp
  · rw [hparts, List.headD_cons]
    exact hname

theorem memtok_lt {delimiter : UInt8} {s : List UInt8} {offset : Nat}
    (h : dmUtilsMemtok delimiter s = some offset) : offset + 1 < s.length := by
  induction s generalizing offset with
  | nil => cases h
  | cons b s ih =>
    rw [dmUtilsMemtok] at h
    split at h
    next hb =>
      cases h
      have := List.length_pos_iff.mpr hb.2
      simpa using this
    next =>
      obtain ⟨offset', h', rfl⟩ := Option.map_eq_some_iff.mp h
      have := ih h'
      simpa using this

end Walk

/-! ## The shadow after a set -/

section Entries

variable {owner : Owner} {shadow : DmShw} {key rest : List UInt8} {i : Nat}

theorem entries_mapStorage {α : Type} {f : List α → List α} (hf : f [] = []) (table : Table α) :
    (mapStorage f table).entries = f table.entries := by
  obtain ⟨number, storage⟩ := table
  cases storage with
  | none => exact hf.symm
  | some entries => rfl

theorem lt_of_found {α : Type} {table : Table α} {identifier : α → Option CStr} {bound : Nat}
    (h : searchBy bound ((table.entries.take table.number).map identifier) key = .found i) :
    i < table.entries.length := by
  rw [searchBy] at h
  split at h
  · cases h
  · have hlt := identifierLoop_lt h
    rw [List.length_map, List.length_take] at hlt
    omega

theorem addressed_parameters (h : owner.addressed shadow key = .parameters i rest) :
    rest ≠ [] ∧ ∃ name, owner.search shadow name = .found i := by
  unfold Owner.addressed at h
  split at h
  · cases h
  · split at h
    · cases h
    next offset hoffset =>
      split at h
      · cases h
      · cases h
      next hfound =>
        cases h
        refine ⟨fun hnil => ?_, _, hfound⟩
        have hlt := memtok_lt hoffset
        have hle := List.drop_eq_nil_iff.mp hnil
        omega

theorem table_modify {f : Table Data → Table Data} {name : List UInt8}
    (h : owner.search shadow name = .found i) :
    owner.table (owner.modify shadow i f) i = f (owner.table shadow i) := by
  cases owner with
  | eventOutput =>
    have hlt : i < shadow.events.entries.length := lt_of_found h
    simp [Owner.table, Owner.modify, entries_mapStorage, hlt]
  | serviceInput =>
    have hlt : i < shadow.services.entries.length := lt_of_found h
    simp [Owner.table, Owner.modify, entries_mapStorage, hlt]
  | serviceOutput =>
    have hlt : i < shadow.services.entries.length := lt_of_found h
    simp [Owner.table, Owner.modify, entries_mapStorage, hlt]

theorem mapStorage_self {α : Type} {f : List α → List α} {table : Table α}
    (h : f table.entries = table.entries) : mapStorage f table = table := by
  obtain ⟨number, storage⟩ := table
  cases storage with
  | none => rfl
  | some entries => exact congrArg (Table.mk number) (congrArg some h)

theorem mapStorage_modify {α : Type} {g : α → α} {table : Table α} {a : α}
    (h : table.entries[i]? = some a) (ha : g a = a) : mapStorage (·.modify i g) table = table :=
  mapStorage_self (modify_of_fixed h ha)

theorem modify_self {f : Table Data → Table Data} {name : List UInt8}
    (h : owner.search shadow name = .found i)
    (hf : f (owner.table shadow i) = owner.table shadow i) : owner.modify shadow i f = shadow := by
  cases owner with
  | eventOutput =>
    have hlt : i < shadow.events.entries.length := lt_of_found h
    have hentry := List.getElem?_eq_getElem hlt
    simp only [Owner.table, hentry, Option.map_some, Option.getD_some] at hf
    rw [Owner.modify, mapStorage_modify hentry (by rw [hf])]
  | serviceInput =>
    have hlt : i < shadow.services.entries.length := lt_of_found h
    have hentry := List.getElem?_eq_getElem hlt
    simp only [Owner.table, hentry, Option.map_some, Option.getD_some] at hf
    rw [Owner.modify, mapStorage_modify hentry (by rw [hf])]
  | serviceOutput =>
    have hlt : i < shadow.services.entries.length := lt_of_found h
    have hentry := List.getElem?_eq_getElem hlt
    simp only [Owner.table, hentry, Option.map_some, Option.getD_some] at hf
    rw [Owner.modify, mapStorage_modify hentry (by rw [hf])]

variable {table : Table Data} {path : List Step} {index : Int}

theorem reached_update {f : DataValue → DataValue} {j : Nat} :
    reached (mapStorage (updateProperties f · (.member j :: path)) table) =
      updateProperties f (reached table) (.member j :: path) := by
  rw [reached, entries_mapStorage (by simp [updateProperties]), updateProperties, List.take_modify]
  rfl

theorem parameterSearch_found (owner : Owner) (hrest : rest ≠ []) :
    owner.parameterSearch table rest = .succeeded (some (path, index)) ↔
      propertySearch (reached table) rest = .found path index := by
  have hloop : parameterLoop table rest = .succeeded (some (path, index)) ↔
      propertySearch (reached table) rest = .found path index := by
    unfold parameterLoop
    cases hsearch : propertySearch (reached table) rest with
    | undefined => simp
    | found path' index' => simp
    | failed =>
      refine iff_of_false (fun h => ?_) nofun
      dsimp only at h
      split at h <;> cases h
  cases owner with
  | eventOutput =>
    refine Iff.trans ?_ hloop
    show eventOutputSearch table rest = _ ↔ _
    unfold eventOutputSearch
    split
    next hguard =>
      refine iff_of_false nofun fun h => ?_
      have hempty : reached table = [] := by
        rw [reached, Table.entries]
        rcases hguard with hnull | hzero | hnil
        · rw [hnull]
          simp
        · rw [hzero]
          simp
        · exact absurd hnil hrest
      rw [hloop, hempty, propertySearch, if_neg hrest, propertyLoop] at h
      cases h
    · rfl
  | serviceInput => exact hloop
  | serviceOutput => exact hloop

theorem parameterSearch_failed (hrest : rest ≠ []) :
    (∃ res, owner.parameterSearch table rest = .failed res) ↔
      owner = .eventOutput ∧ (table.storage = none ∨ table.number = 0) := by
  have hloop : ∀ res, parameterLoop table rest ≠ .failed res := by
    intro res h
    unfold parameterLoop at h
    split at h
    · cases h
    · cases h
    · split at h <;> cases h
  cases owner with
  | eventOutput =>
    show (∃ res, eventOutputSearch table rest = .failed res) ↔ _
    unfold eventOutputSearch
    split
    next hguard =>
      refine iff_of_true ⟨_, rfl⟩ ⟨rfl, ?_⟩
      exact hguard.imp_right fun h => h.resolve_right hrest
    next hguard =>
      refine iff_of_false (fun ⟨res, h⟩ => hloop res h) fun h => hguard ?_
      exact h.2.imp_right Or.inl
  | serviceInput => exact iff_of_false (fun ⟨res, h⟩ => hloop res h) nofun
  | serviceOutput => exact iff_of_false (fun ⟨res, h⟩ => hloop res h) nofun

end Entries

/-! ## The law -/

section Law

variable {owner : Owner} {shadow : DmShw} {key rest : List UInt8} {i : Nat} {path : List Step}
  {index : Int} {node : DataValue} {res : Int}

theorem addressed_refused (h : owner.addressed shadow key = .refused res) : res ≠ success := by
  unfold Owner.addressed at h
  split at h
  · cases h
    decide
  · split at h
    · cases h
      decide
    · split at h
      · cases h
      · cases h
        cases owner <;> decide
      · cases h

theorem res_of_failed {table : Table Data}
    (h : owner.parameterSearch table rest = .failed res) (hrest : rest ≠ []) : res ≠ success := by
  obtain ⟨rfl, hguard⟩ := (parameterSearch_failed hrest).mp ⟨res, h⟩
  have hnull : table.storage = none ∨ table.number = 0 ∨ rest = [] :=
    hguard.imp_right Or.inl
  have hfailed : eventOutputSearch table rest = .failed userInputInvalid := if_pos hnull
  cases hfailed.symm.trans h
  decide

theorem set_of_search (h : owner.addressed shadow key = .parameters i rest)
    (hsearch : propertySearch (reached (owner.table shadow i)) rest = .found path index)
    (hfind : (root (reached (owner.table shadow i))).find path = some node)
    (value : Option View) (malloc : Bool) :
    owner.set shadow key value malloc =
      (dataSet node index (value.getD View.null) malloc).map fun (res, data') =>
        (if res = success then success else owner.setFailed,
          owner.modify shadow i (mapStorage (updateProperties (fun _ => data') · path))) := by
  have hfound := (parameterSearch_found owner (addressed_parameters h).1).mpr hsearch
  simp only [Owner.set, h, hfound, hfind]

theorem get_of_search (h : owner.addressed shadow key = .parameters i rest)
    (hsearch : propertySearch (reached (owner.table shadow i)) rest = .found path index)
    (hfind : (root (reached (owner.table shadow i))).find path = some node) (malloc : Bool) :
    owner.get shadow key malloc = (dataGet node index malloc).map fun
      | .ok leaf => .ok leaf
      | .error _ => .error owner.getFailed := by
  have hfound := (parameterSearch_found owner (addressed_parameters h).1).mpr hsearch
  simp only [Owner.get, h, hfound, hfind]

theorem dataGet_cases (hdangling : ¬ node.Dangling index) (malloc : Bool) :
    (∃ res, dataGet node index malloc = some (.error res)) ∨
      node.Settable index ∧ dataGet node index malloc ≠ none := by
  unfold dataGet
  cases node with
  | basic t v => exact .inr ⟨trivial, Option.some_ne_none _⟩
  | emptyArray type size =>
    left
    dsimp only
    split
    · exact ⟨_, rfl⟩
    · split <;> exact ⟨_, rfl⟩
  | basicArray t size items =>
    dsimp only
    split
    · exact .inl ⟨_, rfl⟩
    · next hrange =>
      have hlt : index.toNat < items.length :=
        Nat.lt_of_not_le fun hle => hdangling ⟨hrange, hle⟩
      rw [List.getElem?_eq_getElem hlt]
      exact .inr ⟨⟨hrange, hlt⟩, Option.some_ne_none _⟩
  | _ => exact .inl ⟨_, rfl⟩

theorem getFailed_ne (owner : Owner) : owner.getFailed ≠ success := by cases owner <;> decide

theorem setFailed_ne (owner : Owner) : owner.setFailed ≠ success := by cases owner <;> decide

theorem notExist_ne (owner : Owner) : owner.notExist ≠ success := by cases owner <;> decide

theorem law_of_turned_away
    (hset : ∀ value malloc, ∃ res, owner.set shadow key value malloc = some (res, shadow) ∧
      res ≠ success)
    (hget : ∀ malloc, ∃ res, owner.get shadow key malloc = some (.error res) ∧ res ≠ success)
    (hsearched : ∀ i rest, owner.addressed shadow key = .parameters i rest →
      ∃ res, owner.parameterSearch (owner.table shadow i) rest = .failed res ∧ res ≠ success) :
    ParametersLaw owner shadow key where
  searched i rest h := by
    obtain ⟨res, hfailed, hres⟩ := hsearched i rest h
    refine ⟨fun hsucceeded => ?_, fun _ => ⟨res, hfailed, hres⟩⟩
    cases hfailed.symm.trans hsucceeded
  setReturns value malloc hnone := by
    obtain ⟨res, hsome, -⟩ := hset value malloc
    cases hnone.symm.trans hsome
  getReturns malloc hnone := by
    obtain ⟨res, hsome, -⟩ := hget malloc
    cases hnone.symm.trans hsome
  unknown _ value malloc := ⟨hset value malloc, hget malloc⟩
  set value malloc shadow' hsuccess := by
    obtain ⟨res, hsome, hres⟩ := hset (some value) malloc
    cases hsome.symm.trans hsuccess
    exact absurd rfl hres
  got malloc leaf hok := by
    obtain ⟨res, hsome, -⟩ := hget malloc
    cases hsome.symm.trans hok

theorem law_of_leads (h : owner.addressed shadow key = .parameters i rest)
    (hleads : Leads (reached (owner.table shadow i)) rest) : ParametersLaw owner shadow key := by
  obtain ⟨hrest, name, hname⟩ := addressed_parameters h
  obtain ⟨⟨path, index, hsearch⟩, hcareful⟩ := (leads_iff hrest).mp hleads
  obtain ⟨j, d, path', node, rfl, hd, hfind, hfind', hnames⟩ := propertySearch_found hsearch
  have hset := set_of_search h hsearch hfind
  have hget := get_of_search h hsearch hfind
  have hdangling := hcareful.stored _ _ _ hsearch hfind
  -- a leaf that is set or got is one that the key names
  have hnamed (hs : node.Settable index) :
      Names (reached (owner.table shadow i)) rest (.member j :: path') index.toNat ∧
        ∃ old, node.cell index.toNat = some old := by
    obtain ⟨hcell, hiff⟩ := hnames hs
    exact ⟨hiff.mpr (hcareful.written _ _ _ hsearch hfind hs),
      Option.isSome_iff_exists.mp hcell⟩
  have hleaf {old : Leaf} (hold : node.cell index.toNat = some old) :
      leafAt (root (reached (owner.table shadow i))) (.member j :: path') index.toNat =
        some old := by
    rw [leafAt, hfind]
    exact hold
  have hparameter (hs : node.Settable index) : NamesParameter owner shadow key := by
    obtain ⟨hspelled, old, hold⟩ := hnamed hs
    exact ⟨i, rest, _, _, old, h, hspelled, hleaf hold⟩
  have hrefused (hs : ¬ node.Settable index) (value : Option View) (malloc : Bool) :
      ∃ res, owner.set shadow key value malloc = some (res, shadow) ∧ res ≠ success := by
    obtain ⟨res, hdata, hres⟩ :=
      dataSet_of_not_settable hs hdangling (value.getD View.null) malloc
    refine ⟨owner.setFailed, ?_, setFailed_ne owner⟩
    have hentry : (owner.table shadow i).entries[j]? = some d := by
      rw [reached, List.getElem?_take] at hd
      split at hd
      · exact hd
      · cases hd
    have hsame : mapStorage (updateProperties (fun _ => node) · (.member j :: path'))
        (owner.table shadow i) = owner.table shadow i :=
      mapStorage_modify hentry (by rw [update_self hfind'])
    simp only [hset, hdata, Option.map_some, if_neg hres, modify_self hname hsame]
  refine ⟨fun i' rest' h' => ?_, fun value malloc => ?_, fun malloc => ?_,
    fun hunknown value malloc => ?_, fun value malloc shadow' hsuccess => ?_,
    fun malloc leaf hok => ?_⟩
  · cases h.symm.trans h'
    have hfound := (parameterSearch_found owner hrest).mpr hsearch
    exact ⟨by simp [hfound], fun hno => absurd (hasParameter_of_found hrest hsearch) hno⟩
  · by_cases hs : node.Settable index
    · obtain ⟨-, old, hold⟩ := hnamed hs
      obtain ⟨res, w, hdata, -⟩ := dataSet_of_settable hs hold (value.getD View.null) malloc
      simp [hset, hdata]
    · obtain ⟨res, hsome, -⟩ := hrefused hs value malloc
      simp [hsome]
  · rcases dataGet_cases hdangling malloc with ⟨res, herror⟩ | ⟨-, hsome⟩
    · simp [hget, herror]
    · simpa [hget] using hsome
  · have hs : ¬ node.Settable index := fun hs => hunknown (hparameter hs)
    refine ⟨hrefused hs value malloc, owner.getFailed, ?_, getFailed_ne owner⟩
    rcases dataGet_cases hdangling malloc with ⟨res, herror⟩ | ⟨hs', -⟩
    · simp [hget, herror]
    · exact absurd hs' hs
  · by_cases hs : node.Settable index
    · obtain ⟨hspelled, old, hold⟩ := hnamed hs
      obtain ⟨res, w, hdata, -, hsets⟩ := dataSet_of_settable hs hold value malloc
      rw [hset, Option.getD_some, hdata, Option.map_some, Option.some.injEq,
        Prod.mk.injEq] at hsuccess
      obtain ⟨-, rfl⟩ := hsuccess
      refine ⟨i, rest, _, _, old, h, hspelled, hleaf hold, fun path'' k' hne => ?_⟩
      rw [table_modify hname, reached_update]
      exact leafAt_of_sets hfind hsets hne
    · obtain ⟨res, hsome, hres⟩ := hrefused hs (some value) malloc
      cases hsome.symm.trans hsuccess
      exact absurd rfl hres
  · rcases dataGet_cases hdangling malloc with ⟨res, herror⟩ | ⟨hs, -⟩
    · rw [hget, herror] at hok
      cases hok
    · exact hparameter hs

theorem law_of_reaches (h : Reaches owner shadow key) : ParametersLaw owner shadow key := by
  rcases h with ⟨res, h⟩ | ⟨i, rest, h, hguard | hleads⟩
  · have hres := addressed_refused h
    refine law_of_turned_away (fun value malloc => ⟨res, ?_, hres⟩) (fun malloc => ⟨res, ?_, hres⟩)
      fun i rest h' => ?_
    · simp only [Owner.set, h]
    · simp only [Owner.get, h]
    · cases h.symm.trans h'
  · have hrest := (addressed_parameters h).1
    obtain ⟨res, hfailed⟩ := (parameterSearch_failed hrest).mpr hguard
    refine law_of_turned_away (fun value malloc => ⟨owner.notExist, ?_, notExist_ne owner⟩)
      (fun malloc => ⟨owner.notExist, ?_, notExist_ne owner⟩) fun i' rest' h' => ?_
    · simp only [Owner.set, h, hfailed]
    · simp only [Owner.get, h, hfailed]
    · cases h.symm.trans h'
      exact ⟨res, hfailed, res_of_failed hfailed hrest⟩
  · exact law_of_leads h hleads

theorem reaches_of_law (h : ParametersLaw owner shadow key) : Reaches owner shadow key := by
  have hreturns := h.setReturns none true
  cases haddressed : owner.addressed shadow key with
  | undefined => exact absurd (by simp only [Owner.set, haddressed]) hreturns
  | refused res => exact .inl ⟨res, haddressed⟩
  | parameters i rest =>
    obtain ⟨hrest, name, hname⟩ := addressed_parameters haddressed
    refine .inr ⟨i, rest, haddressed, ?_⟩
    cases hsearched : owner.parameterSearch (owner.table shadow i) rest with
    | undefined => exact absurd (by simp only [Owner.set, haddressed, hsearched]) hreturns
    | failed res => exact .inl ((parameterSearch_failed hrest).mp ⟨res, hsearched⟩)
    | succeeded data =>
      cases data with
      | none => exact absurd (by simp only [Owner.set, haddressed, hsearched]) hreturns
      | some found =>
        obtain ⟨path, index⟩ := found
        have hsearch := (parameterSearch_found owner hrest).mp hsearched
        refine .inr ((leads_iff hrest).mpr ⟨⟨path, index, hsearch⟩, ?_⟩)
        obtain ⟨j, d, path', node, rfl, hd, hfind, hfind', -⟩ := propertySearch_found hsearch
        have hset := set_of_search haddressed hsearch hfind
        refine careful_of_named (fun value malloc hnone => ?_)
          fun value malloc properties' hset' => ?_
        · refine h.setReturns value malloc ?_
          rw [set_of_found hsearch hfind, Option.map_eq_none_iff] at hnone
          rw [hset, hnone]
          rfl
        · rw [set_of_found hsearch hfind, Option.map_eq_some_iff] at hset'
          obtain ⟨⟨res, data'⟩, hdata, heq⟩ := hset'
          obtain ⟨hres, rfl⟩ := Prod.mk.inj heq
          have hsucc : res = success := by
            by_contra hne
            rw [if_neg hne] at hres
            exact absurd hres (by decide)
          have hsome : owner.set shadow key (some value) malloc = some (success,
              owner.modify shadow i
                (mapStorage (updateProperties (fun _ => data') · (.member j :: path')))) := by
            simp only [hset, hdata, Option.map_some, if_pos hsucc]
          obtain ⟨i', rest', path'', k, old, h', hnames, -, hothers⟩ := h.set value malloc _ hsome
          cases haddressed.symm.trans h'
          rw [table_modify hname, reached_update] at hothers
          exact ⟨path'', k, hnames, hothers⟩

/-- The calls keep their promises for the keys whose walk ends at a parameter, and for those that
are turned away before it. -/
theorem parametersLaw_iff (owner : Owner) (shadow : DmShw) (key : List UInt8) :
    ParametersLaw owner shadow key ↔ Reaches owner shadow key :=
  ⟨reaches_of_law, law_of_reaches⟩

end Law

theorem zero_not_mem_a : (0 : UInt8) ∉ [97] := by decide

/-- An event `e` and a service `s`, both with the one parameter `a`. -/
def oneParameter : DmShw where
  properties := .empty
  events := ⟨1, some [⟨some ⟨[101], by decide⟩,
    ⟨1, some [(some ⟨[97], zero_not_mem_a⟩, .basic .int 3)]⟩⟩]⟩
  services := ⟨1, some [⟨some ⟨[115], by decide⟩, .empty,
    ⟨1, some [(some ⟨[97], zero_not_mem_a⟩, .basic .int 3)]⟩⟩]⟩

/-- The keys `e.b` and `s.b`, and any key of the service's inputs, end in an access through `NULL`
after a search that has succeeded. -/
theorem unknown_parameter_found :
    eventOutputSearch (Owner.table oneParameter 0 .eventOutput) [98] = .succeeded none ∧
      dmShwSetEventOutputValue oneParameter [101, 46, 98] (some View.null) true = none ∧
      dmShwGetEventOutputValue oneParameter [101, 46, 98] true = none ∧
      dmShwSetServiceInputOutputValue .serviceOutputData oneParameter [115, 46, 98]
        (some View.null) true = none ∧
      dmShwGetServiceInputOutputValue .serviceInputData oneParameter [115, 46, 97] true = none ∧
      ¬ ParametersLaw .eventOutput oneParameter [101, 46, 98] := by
  have hset : dmShwSetEventOutputValue oneParameter [101, 46, 98] (some View.null) true = none := by
    rfl
  exact ⟨by rfl, hset, by rfl, by rfl, by rfl, fun h => h.setReturns _ _ hset⟩

end AliyunIot.Dm.Shadow
