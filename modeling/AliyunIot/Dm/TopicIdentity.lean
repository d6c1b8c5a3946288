import AliyunIot.Dm.EventMessage
import AliyunIot.Dm.Shadow
import AliyunIot.Dm.Subscribe
import AliyunIot.Infra.CharBuf

/-!
# The device of a topic

`dm_msg_uri_parse_pkdn` copies what stands between three delimiters of a topic, whatever its
length, into arrays of its caller. It gets back what `dm_utils_service_name` put in
(`served_iff`); a longer segment leaves the array or its place for the terminator, and
`dm_msg_proc_thing_model_user_sub` has arrays of one byte less (`identity_iff`).
-/

namespace AliyunIot.Dm.TopicIdentity

abbrev iotxProductKeyLen : Nat := 20
abbrev iotxDeviceNameLen : Nat := 32

abbrev delimiter : UInt8 := 47

abbrev urlSplitFailed : Int := State.devModelBase - 0x0023

/-- What a function does with its arrays: it returns, and gives them back, or it reads or writes
beyond them. -/
inductive Parsed where
  | returned (res : Int) (productKey deviceName : CharBuf)
  | outside

/-- The two calls of `memcpy`, where the second length is not negative. -/
def copySlices (uri : List UInt8) (start slice stop : Nat) (productKey deviceName : CharBuf) :
    Parsed :=
  if stop < slice + 1 then .outside
  else
    match productKey.write 0 ((uri.drop (start + 1)).take (slice - start - 1)),
      deviceName.write 0 ((uri.drop (slice + 1)).take (stop - slice - 1)) with
    | some productKey, some deviceName => .returned State.success productKey deviceName
    | _, _ => .outside

def dmMsgUriParsePkdn (uri : List UInt8) (startDeli endDeli : Nat)
    (productKey deviceName : CharBuf) : Parsed :=
  if uri = [] then .returned State.userInputInvalid productKey deviceName
  else
    match productKey.text, deviceName.text with
    | some key, some name =>
      if iotxProductKeyLen + 1 ≤ key.strlen ∨ iotxDeviceNameLen + 1 ≤ name.strlen then
        .returned State.userInputInvalid productKey deviceName
      else
        match dmUtilsMemtok uri delimiter startDeli, dmUtilsMemtok uri delimiter (startDeli + 1),
          dmUtilsMemtok uri delimiter endDeli with
        | some start, some slice, some stop =>
          copySlices uri start slice stop productKey deviceName
        | _, _, _ => .returned urlSplitFailed productKey deviceName
    | _, _ => .outside

structure DmMsgSource where
  uri : CStr
  payload : List UInt8

/-- How a function that proceeds a message ends: with a code of its own, in a call with the
product key and the device name, or beyond its arrays. -/
inductive Proc where
  | returned (res : Int)
  | called (productKey deviceName : CharBuf) (payload : List UInt8)
  | outside
  deriving DecidableEq

/-- An error is passed on. -/
def Parsed.proc (payload : List UInt8) : Parsed → Proc
  | .outside => .outside
  | .returned res productKey deviceName =>
    if res ≠ State.success then .returned res else .called productKey deviceName payload

/-- What these functions have in common: they parse the uri into cleared arrays. -/
def procPkdn (keySize nameSize dmUriOffset : Nat) (source : DmMsgSource) : Proc :=
  (dmMsgUriParsePkdn source.uri.val (2 + dmUriOffset) (4 + dmUriOffset)
    (CharBuf.zeros keySize) (CharBuf.zeros nameSize)).proc source.payload

def dmMsgProcThingModelDownRaw (dmUriOffset : Nat) (source : DmMsgSource) : Proc :=
  procPkdn (iotxProductKeyLen + 1) (iotxDeviceNameLen + 1) dmUriOffset source

def dmMsgProcThingModelUserSub (dmUriOffset : Nat) (source : DmMsgSource) : Proc :=
  procPkdn iotxProductKeyLen iotxDeviceNameLen dmUriOffset source

/-! ## Segments -/

/-- Behind `count` delimiters and one more stand the two segments, each with a delimiter, and
something. -/
def Segments (uri : List UInt8) (count : Nat) (key name : List UInt8) : Prop :=
  ∃ front rest, uri = front ++ delimiter :: (key ++ delimiter :: (name ++ delimiter :: rest)) ∧
    front.count delimiter = count ∧ delimiter ∉ key ∧ delimiter ∉ name ∧ rest ≠ []

section Memtok

variable {d b : UInt8} {s front rest : List UInt8} {index count offset k : Nat}

theorem memtokFrom_eq (h : count + front.count d + 1 = index) (hrest : rest ≠ []) :
    memtokFrom d index (front ++ d :: rest) count offset = some (offset + front.length) := by
  induction front generalizing count offset with
  | nil =>
    obtain ⟨c, rest, rfl⟩ := List.exists_cons_of_ne_nil hrest
    rw [List.nil_append, memtokFrom, if_pos rfl, if_pos (by simpa using h)]
    rfl
  | cons b front ih =>
    obtain ⟨c, tail, htail⟩ := List.exists_cons_of_ne_nil
      (show front ++ d :: rest ≠ [] by simp)
    rw [List.cons_append, htail, memtokFrom, ← htail]
    by_cases hb : b = d
    · rw [hb, List.count_cons_self] at h
      rw [if_pos hb, if_neg (by omega), ih (by omega), List.length_cons, Nat.add_assoc,
        Nat.add_comm 1]
    · rw [List.count_cons_of_ne hb] at h
      rw [if_neg hb, ih h, List.length_cons, Nat.add_assoc, Nat.add_comm 1]

theorem of_memtokFrom (h : memtokFrom d index s count offset = some k) :
    ∃ front rest, s = front ++ d :: rest ∧ count + front.count d + 1 = index ∧ rest ≠ [] := by
  fun_induction memtokFrom d index s count offset with
  | case1 c input count offset hindex => exact ⟨[], c :: input, rfl, by simpa using hindex, by simp⟩
  | case2 c input count offset hindex ih =>
    obtain ⟨front, rest, hs, hcount, hrest⟩ := ih h
    refine ⟨d :: front, rest, by rw [hs, List.cons_append], ?_, hrest⟩
    rw [List.count_cons_self]
    omega
  | case3 b c input count offset hb ih =>
    obtain ⟨front, rest, hs, hcount, hrest⟩ := ih h
    refine ⟨b :: front, rest, by rw [hs, List.cons_append], ?_, hrest⟩
    rw [List.count_cons_of_ne hb]
    exact hcount
  | case4 => cases h

theorem memtok_eq (index : Nat) (h : front.count d + 1 = index) (hrest : rest ≠ []) :
    dmUtilsMemtok (front ++ d :: rest) d index = some front.length := by
  rw [dmUtilsMemtok, memtokFrom_eq (by rwa [Nat.zero_add]) hrest, Nat.zero_add]

theorem of_memtok (h : dmUtilsMemtok s d index = some k) :
    ∃ front rest, s = front ++ d :: rest ∧ front.count d + 1 = index ∧ rest ≠ [] := by
  obtain ⟨front, rest, hs, hcount, hrest⟩ := of_memtokFrom h
  exact ⟨front, rest, hs, by rwa [Nat.zero_add] at hcount, hrest⟩

theorem memtokFrom_one (s : List UInt8) (offset : Nat) :
    memtokFrom d 1 s 0 offset = (Shadow.dmUtilsMemtok d s).map (· + offset) := by
  induction s generalizing offset with
  | nil => rfl
  | cons b s ih =>
    cases s with
    | nil => simp [memtokFrom, Shadow.dmUtilsMemtok]
    | cons c s =>
      rw [memtokFrom, Shadow.dmUtilsMemtok]
      by_cases hb : b = d
      · rw [if_pos hb, if_pos rfl, if_pos ⟨hb, List.cons_ne_nil c s⟩, Option.map_some, Nat.zero_add]
      · rw [if_neg hb, if_neg fun h => hb h.1, ih, Option.map_map]
        exact congrArg (Option.map · _) (funext fun k => by simp only [Function.comp]; omega)

theorem memtok_one (s : List UInt8) : dmUtilsMemtok s d 1 = Shadow.dmUtilsMemtok d s :=
  (memtokFrom_one s 0).trans Option.map_id'

theorem split_last (h : 0 < s.count d) :
    ∃ front back, s = front ++ d :: back ∧ d ∉ back ∧ front.count d + 1 = s.count d := by
  obtain ⟨front, x, back, hs, rfl, hback⟩ := Lib.exists_last_split (P := (· = d))
    ⟨d, List.count_pos_iff.mp h, rfl⟩
  have hnot : x ∉ back := fun hmem => hback x hmem rfl
  refine ⟨front, back, hs, hnot, ?_⟩
  rw [hs, List.count_append, List.count_cons_self, List.count_eq_zero.mpr hnot]

end Memtok

/-! ## Parsing -/

section Parsing

variable {uri key name : List UInt8} {count keySize nameSize k : Nat}

theorem segments_of_memtok (h : dmUtilsMemtok uri delimiter (count + 3) = some k) :
    ∃ key name, Segments uri count key name := by
  obtain ⟨front, rest, huri, hcount, hrest⟩ := of_memtok h
  obtain ⟨front', name, hfront, hname, hcount'⟩ :=
    split_last (d := delimiter) (s := front) (by omega)
  obtain ⟨front'', key, hfront', hkey, hcount''⟩ :=
    split_last (d := delimiter) (s := front') (by omega)
  refine ⟨key, name, front'', rest, ?_, by omega, hkey, hname, hrest⟩
  rw [huri, hfront, hfront']
  simp only [List.append_assoc, List.cons_append]

theorem text_zeros (hsize : 0 < k) : (CharBuf.zeros k).text = some CStr.empty := by
  obtain ⟨k, rfl⟩ := Nat.exists_eq_succ_of_ne_zero (Nat.ne_of_gt hsize)
  rw [CharBuf.text, CharBuf.zeros, List.replicate_succ, if_pos List.mem_cons_self]
  rfl

theorem write_zeros (s : List UInt8) : (CharBuf.zeros k).write 0 s =
    if s.length ≤ k then some (s ++ List.replicate (k - s.length) 0) else none := by
  rw [CharBuf.write, CharBuf.length_zeros, CharBuf.put, Nat.zero_add, List.take_zero,
    List.nil_append, CharBuf.zeros, List.drop_replicate]

theorem text_write (hkey : (0 : UInt8) ∉ key) (hlt : key.length < k) :
    (key ++ List.replicate (k - key.length) 0 : CharBuf).text.map Subtype.val = some key := by
  obtain ⟨j, hj⟩ : ∃ j, k - key.length = j + 1 := ⟨k - key.length - 1, by omega⟩
  rw [hj, List.replicate_succ, CharBuf.text, if_pos (by simp), Option.map_some]
  exact congrArg some (Format.precision_append_zero hkey)

theorem lt_of_text_write {s : List UInt8} (hkey : (0 : UInt8) ∉ key)
    (h : (key ++ List.replicate (k - key.length) 0 : CharBuf).text.map Subtype.val = some s) :
    key.length < k := by
  by_contra hle
  rw [Nat.sub_eq_zero_of_le (Nat.not_lt.mp hle), List.replicate_zero, List.append_nil,
    CharBuf.text, if_neg hkey] at h
  cases h

theorem zero_not_mem_segments (huri : (0 : UInt8) ∉ uri) (h : Segments uri count key name) :
    (0 : UInt8) ∉ key ∧ (0 : UInt8) ∉ name := by
  obtain ⟨front, rest, rfl, -⟩ := h
  exact ⟨fun h0 => huri (by simp [h0]), fun h0 => huri (by simp [h0])⟩

theorem parse_of_segments (h : Segments uri count key name) (keySize nameSize : Nat)
    (hkeySize : 0 < keySize) (hnameSize : 0 < nameSize) :
    dmMsgUriParsePkdn uri (count + 1) (count + 3) (CharBuf.zeros keySize)
        (CharBuf.zeros nameSize) =
      if key.length ≤ keySize ∧ name.length ≤ nameSize then
        .returned State.success (key ++ List.replicate (keySize - key.length) 0)
          (name ++ List.replicate (nameSize - name.length) 0)
      else .outside := by
  obtain ⟨front, rest, huri, hcount, hkey, hname, hrest⟩ := h
  have hslice : uri = (front ++ delimiter :: key) ++ delimiter :: (name ++ delimiter :: rest) := by
    rw [huri]
    simp only [List.append_assoc, List.cons_append]
  have hstop : uri =
      (front ++ delimiter :: (key ++ delimiter :: name)) ++ delimiter :: rest := by
    rw [huri]
    simp only [List.append_assoc, List.cons_append]
  have hkeyCount := List.count_eq_zero.mpr hkey
  have hnameCount := List.count_eq_zero.mpr hname
  have hstartTok : dmUtilsMemtok uri delimiter (count + 1) = some front.length := by
    rw [huri]
    exact memtok_eq _ (by rw [hcount]) (by simp)
  have hsliceTok : dmUtilsMemtok uri delimiter (count + 1 + 1) =
      some (front.length + (key.length + 1)) := by
    rw [hslice, memtok_eq (count + 1 + 1)
      (by rw [List.count_append, List.count_cons_self, hkeyCount, hcount]) (by simp),
      List.length_append, List.length_cons]
  have hstopTok : dmUtilsMemtok uri delimiter (count + 3) =
      some (front.length + (key.length + (name.length + 1) + 1)) := by
    rw [hstop, memtok_eq (count + 3)
      (by
        rw [List.count_append, List.count_cons_self, List.count_append, List.count_cons_self,
          hkeyCount, hnameCount, hcount]) hrest,
      List.length_append, List.length_cons, List.length_append, List.length_cons]
  have hne : uri ≠ [] := by
    rw [huri]
    simp
  have hkeySlice : (uri.drop (front.length + 1)).take
      (front.length + (key.length + 1) - front.length - 1) = key := by
    have hlen : front.length + (key.length + 1) - front.length - 1 = key.length := by omega
    rw [hlen, huri, ← List.drop_drop, List.drop_left, List.drop_one, List.tail_cons, List.take_left]
  have hnameSlice : (uri.drop (front.length + (key.length + 1) + 1)).take
      (front.length + (key.length + (name.length + 1) + 1) -
        (front.length + (key.length + 1)) - 1) = name := by
    have hlen : front.length + (key.length + (name.length + 1) + 1) -
      (front.length + (key.length + 1)) - 1 = name.length := by omega
    have hfront : front.length + (key.length + 1) = (front ++ delimiter :: key).length := by
      rw [List.length_append, List.length_cons]
    rw [hlen, hfront, hslice, ← List.drop_drop, List.drop_left, List.drop_one, List.tail_cons,
      List.take_left]
  simp only [dmMsgUriParsePkdn, if_neg hne, text_zeros hkeySize, text_zeros hnameSize, hstartTok,
    hsliceTok, hstopTok, copySlices, hkeySlice, hnameSlice, write_zeros]
  rw [if_neg (by decide), if_neg (by omega)]
  by_cases hkeyLe : key.length ≤ keySize
  · by_cases hnameLe : name.length ≤ nameSize
    · simp only [if_pos hkeyLe, if_pos hnameLe, if_pos (And.intro hkeyLe hnameLe)]
    · simp only [if_pos hkeyLe, if_neg hnameLe, if_neg (fun h : _ ∧ _ => hnameLe h.2)]
  · simp only [if_neg hkeyLe, if_neg (fun h : _ ∧ _ => hkeyLe h.1)]

theorem parse_of_not_segments (h : ¬ ∃ key name, Segments uri count key name)
    (keySize nameSize : Nat) (hkeySize : 0 < keySize) (hnameSize : 0 < nameSize) :
    ∃ res, res ≠ State.success ∧
      dmMsgUriParsePkdn uri (count + 1) (count + 3) (CharBuf.zeros keySize)
        (CharBuf.zeros nameSize) =
        .returned res (CharBuf.zeros keySize) (CharBuf.zeros nameSize) := by
  have hstop : dmUtilsMemtok uri delimiter (count + 3) = none := by
    by_contra hne
    obtain ⟨k, hk⟩ := Option.ne_none_iff_exists'.mp hne
    exact h (segments_of_memtok hk)
  simp only [dmMsgUriParsePkdn, text_zeros hkeySize, text_zeros hnameSize, hstop]
  split
  · exact ⟨State.userInputInvalid, by decide, rfl⟩
  · rw [if_neg (by decide)]
    refine ⟨urlSplitFailed, by decide, ?_⟩
    split
    next h => cases h
    next => rfl

end Parsing

/-! ## Topics -/

/-- A product key and a device name as `dm_utils_service_name` gets them. -/
structure Identity where
  productKey : CStr
  deviceName : CStr
  productKey_le : productKey.strlen ≤ iotxProductKeyLen
  deviceName_le : deviceName.strlen ≤ iotxDeviceNameLen
  productKey_plain : delimiter ∉ productKey.val
  deviceName_plain : delimiter ∉ deviceName.val

/-- The parser gets the identity back from a composed service name. -/
def Composed (id : Identity) (name : Option String) : Prop :=
  ∀ malloc uri, dmUtilsServiceName sysPrefix name id.productKey id.deviceName none malloc =
      (State.success, some uri) →
    ∃ productKey deviceName,
      dmMsgUriParsePkdn uri 2 4 (CharBuf.zeros (iotxProductKeyLen + 1))
        (CharBuf.zeros (iotxDeviceNameLen + 1)) =
        .returned State.success productKey deviceName ∧
      productKey.text = some id.productKey ∧ deviceName.text = some id.deviceName

/-- A function returns an error, or it has the segments of the uri with their terminators. -/
def Served (dmUriOffset : Nat) (source : DmMsgSource) (ends : Proc) : Prop :=
  (∃ res, res ≠ State.success ∧ ends = .returned res) ∨
    ∃ productKey deviceName key name, ends = .called productKey deviceName source.payload ∧
      Segments source.uri.val (1 + dmUriOffset) key name ∧
      productKey.text.map Subtype.val = some key ∧ deviceName.text.map Subtype.val = some name

section Topics

variable (id : Identity) (source : DmMsgSource) (dmUriOffset : Nat) {keySize nameSize : Nat}

def nameBytes (name : Option String) : List UInt8 :=
  (name.map fun n => formatStrings n.toList []).getD []

theorem formatStrings_nil (cs : List Char) :
    formatStrings cs [] = cs.map fun c => UInt8.ofNat c.toNat := by
  induction cs with
  | nil => rfl
  | cons c cs ih =>
    rw [formatStrings, ih, List.map_cons]
    simp

theorem nameBytes_ne_nil {n : String} (hn : n ≠ "") : nameBytes (some n) ≠ [] := by
  intro h
  have hchars : formatStrings n.toList [] = [] := h
  rw [formatStrings_nil, List.map_eq_nil_iff] at hchars
  exact hn (String.toList_eq_nil_iff.mp hchars)

theorem serviceNameText_eq (name : Option String) (productKey deviceName : CStr) :
    serviceNameText sysPrefix name productKey deviceName =
      [47, 115, 121, 115] ++ delimiter :: (productKey.val ++
        delimiter :: (deviceName.val ++ delimiter :: nameBytes name)) := by
  have hprefix : formatStrings "/sys/%s/%s/".toList [productKey, deviceName] =
      47 :: 115 :: 121 :: 115 :: 47 :: (productKey.val ++ 47 :: (deviceName.val ++ [47])) := rfl
  rw [serviceNameText, sysPrefix, Option.map_some, Option.getD_some, hprefix, nameBytes]
  simp only [List.cons_append, List.append_assoc, List.nil_append]

theorem not_segments_of_slash : ¬ ∃ key name,
    Segments ([47, 115, 121, 115] ++ delimiter :: (id.productKey.val ++
      delimiter :: (id.deviceName.val ++ [delimiter]))) 1 key name := by
  rintro ⟨key, name, front, rest, huri, hcount, hkey, hname, hrest⟩
  have hcounts := congrArg (List.count delimiter) huri
  have hlasts := congrArg List.getLast? huri
  have hmem : delimiter ∈ rest := by
    apply List.mem_of_getLast?
    obtain ⟨b, rest, rfl⟩ := List.exists_cons_of_ne_nil hrest
    simpa [List.getLast?_append, List.getLast?_cons] using hlasts.symm
  have hpos := List.count_pos_iff.mpr hmem
  simp only [List.count_append, List.count_cons_self, List.count_nil, hcount,
    List.count_eq_zero.mpr hkey, List.count_eq_zero.mpr hname,
    List.count_eq_zero.mpr id.productKey_plain,
    List.count_eq_zero.mpr id.deviceName_plain] at hcounts
  have hsys : List.count delimiter [115, 121, 115] = 0 := rfl
  omega

theorem served_iff (hkeySize : 0 < keySize) (hnameSize : 0 < nameSize) :
    Served dmUriOffset source (procPkdn keySize nameSize dmUriOffset source) ↔
      ∀ key name, Segments source.uri.val (1 + dmUriOffset) key name →
        key.length < keySize ∧ name.length < nameSize := by
  have hstart : 2 + dmUriOffset = 1 + dmUriOffset + 1 := by omega
  have hstop : 4 + dmUriOffset = 1 + dmUriOffset + 3 := by omega
  rw [procPkdn, hstart, hstop]
  constructor
  · intro h key name hsegments
    obtain ⟨hkey, hname⟩ := zero_not_mem_segments source.uri.property hsegments
    rw [parse_of_segments hsegments _ _ hkeySize hnameSize] at h
    split at h
    · rw [Parsed.proc, if_neg (not_not_intro rfl)] at h
      rcases h with ⟨res, -, hres⟩ | ⟨_, _, key', name', hcalled, -, hkeyText, hnameText⟩
      · cases hres
      · cases hcalled
        exact ⟨lt_of_text_write hkey hkeyText, lt_of_text_write hname hnameText⟩
    · rcases h with ⟨res, -, hres⟩ | ⟨_, _, key', name', hcalled, -⟩
      · cases hres
      · cases hcalled
  · intro h
    by_cases hsome : ∃ key name, Segments source.uri.val (1 + dmUriOffset) key name
    · obtain ⟨key, name, hsegments⟩ := hsome
      obtain ⟨hkey, hname⟩ := zero_not_mem_segments source.uri.property hsegments
      obtain ⟨hkeyLt, hnameLt⟩ := h key name hsegments
      rw [parse_of_segments hsegments _ _ hkeySize hnameSize,
        if_pos ⟨Nat.le_of_lt hkeyLt, Nat.le_of_lt hnameLt⟩]
      exact .inr ⟨_, _, key, name, rfl, hsegments, text_write hkey hkeyLt,
        text_write hname hnameLt⟩
    · obtain ⟨res, hres, hparse⟩ := parse_of_not_segments hsome _ _ hkeySize hnameSize
      rw [hparse]
      exact .inl ⟨res, hres, if_pos hres⟩

theorem composed_iff (name : Option String) : Composed id name ↔ ∃ n, name = some n ∧ n ≠ "" := by
  constructor
  · intro h
    obtain ⟨productKey, deviceName, hparse, -⟩ := h true _ rfl
    by_contra hempty
    have hrest : nameBytes name = [] := by
      cases name with
      | none => rfl
      | some n =>
        have hn : n = "" := by
          by_contra hn
          exact hempty ⟨n, rfl, hn⟩
        rw [hn]
        rfl
    rw [serviceNameText_eq, hrest] at hparse
    obtain ⟨res, hres, herror⟩ := parse_of_not_segments (not_segments_of_slash id)
      (iotxProductKeyLen + 1) (iotxDeviceNameLen + 1) (by decide) (by decide)
    rw [herror] at hparse
    injection hparse with hsuccess
    exact hres hsuccess
  · rintro ⟨n, rfl, hn⟩ malloc uri huri
    have htext : uri = serviceNameText sysPrefix (some n) id.productKey id.deviceName := by
      cases malloc with
      | false => cases huri
      | true => exact (Option.some.inj (congrArg Prod.snd huri)).symm
    have hsegments : Segments uri 1 id.productKey.val id.deviceName.val := by
      refine ⟨[47, 115, 121, 115], nameBytes (some n), ?_, rfl, id.productKey_plain,
        id.deviceName_plain, nameBytes_ne_nil hn⟩
      rw [htext, serviceNameText_eq]
    have hparse := parse_of_segments hsegments (iotxProductKeyLen + 1)
      (iotxDeviceNameLen + 1) (by decide) (by decide)
    have hkey : id.productKey.val.length < iotxProductKeyLen + 1 :=
      Nat.lt_succ_of_le id.productKey_le
    have hname : id.deviceName.val.length < iotxDeviceNameLen + 1 :=
      Nat.lt_succ_of_le id.deviceName_le
    rw [if_pos ⟨Nat.le_of_lt hkey, Nat.le_of_lt hname⟩] at hparse
    refine ⟨_, _, hparse, ?_, ?_⟩
    · exact Option.map_injective Subtype.val_injective (text_write id.productKey.property hkey)
    · exact Option.map_injective Subtype.val_injective (text_write id.deviceName.property hname)

end Topics

structure IdentityLaw (id : Identity) (name : Option String) (dmUriOffset : Nat)
    (source : DmMsgSource) : Prop where
  composed : Composed id name
  served : Served dmUriOffset source (dmMsgProcThingModelDownRaw dmUriOffset source)
  userSub : Served dmUriOffset source (dmMsgProcThingModelUserSub dmUriOffset source)

/-- A topic gives its device back, and every other is refused or has its slices fit, exactly if
there is a service name and the segments are shorter than the arrays of
`dm_msg_proc_thing_model_user_sub`. -/
theorem identity_iff (id : Identity) (name : Option String) (dmUriOffset : Nat)
    (source : DmMsgSource) :
    IdentityLaw id name dmUriOffset source ↔
      (∃ n, name = some n ∧ n ≠ "") ∧
        ∀ productKey deviceName,
          Segments source.uri.val (1 + dmUriOffset) productKey deviceName →
            productKey.length < iotxProductKeyLen ∧ deviceName.length < iotxDeviceNameLen := by
  constructor
  · rintro ⟨hcomposed, -, huserSub⟩
    exact ⟨(composed_iff id name).mp hcomposed,
      (served_iff source dmUriOffset (by decide) (by decide)).mp huserSub⟩
  · rintro ⟨hname, hshort⟩
    refine ⟨(composed_iff id name).mpr hname,
      (served_iff source dmUriOffset (by decide) (by decide)).mpr fun key dn h => ?_,
      (served_iff source dmUriOffset (by decide) (by decide)).mpr hshort⟩
    have hlt := hshort key dn h
    omega

theorem zero_not_mem_fullKey : (0 : UInt8) ∉ List.replicate 20 97 := by decide

def fullKey : Identity where
  productKey := ⟨List.replicate 20 97, zero_not_mem_fullKey⟩
  deviceName := ⟨[100], by decide⟩
  productKey_le := by decide
  deviceName_le := by decide
  productKey_plain := by decide
  deviceName_plain := by decide

/-- A message of `/sys/`, so many times `a`, `/d/x`. -/
def keyOf (n : Nat) (h : (0 : UInt8) ∉ List.replicate n (97 : UInt8)) : DmMsgSource where
  uri := ⟨[47, 115, 121, 115, 47] ++ (List.replicate n 97 ++ [47, 100, 47, 120]), by
    simp only [List.mem_append, not_or]
    exact ⟨by decide, h, by decide⟩⟩
  payload := []

/-- The subscription of a user gets a product key of full length without a terminator, and one
byte more is written behind the array. -/
theorem full_key_unterminated :
    ¬ IdentityLaw fullKey (some "x") 0 (keyOf 20 (by decide)) ∧
      dmMsgProcThingModelUserSub 0 (keyOf 20 (by decide)) =
        .called (List.replicate 20 97) (100 :: List.replicate 31 0) [] ∧
      dmMsgProcThingModelUserSub 0 (keyOf 21 (by decide)) = .outside ∧
      dmMsgProcThingModelDownRaw 0 (keyOf 22 (by decide)) = .outside := by
  have hcalled : dmMsgProcThingModelUserSub 0 (keyOf 20 (by decide)) =
      .called (List.replicate 20 97) (100 :: List.replicate 31 0) [] := by decide
  refine ⟨fun h => ?_, hcalled, by decide, by decide⟩
  have hserved := h.userSub
  rw [hcalled] at hserved
  rcases hserved with ⟨res, -, hres⟩ | ⟨_, _, key, name, hends, -, hkey, -⟩
  · cases hres
  · cases hends
    cases hkey

end AliyunIot.Dm.TopicIdentity
