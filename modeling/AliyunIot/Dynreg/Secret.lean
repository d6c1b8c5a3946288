import AliyunIot.Dynreg.Search
import AliyunIot.Lib.JsonValue

/-!
# The secret that is stored

A response is sound if the searches lead to the member with the secret that it grants. Then that
is what is stored, or an error is returned (`inventsNothing_of_sound`), and a response where a
string is found for the secret, and no other than that member, is treated so only if it is sound
(`sound_of_inventsNothing`). The replies of the service are sound (`serviceReply_sound`).
-/

namespace AliyunIot.Dynreg

open Format Lib Lib.Json

/-! ## The buffer -/

section Buffer

variable {payload more v : List UInt8} {slice : Slice} {deviceSecret : SecretArray}

def responseText (bytes : List UInt8) : List UInt8 :=
  precision (bytes.take (httpResponsePayloadLen - 1))

/-- The bytes of the buffer behind the text of the response. -/
def slackOf (bytes : List UInt8) : Nat := httpResponsePayloadLen - (responseText bytes).length

theorem recvCallback_cleared {n : Nat} {received : List UInt8} (h : received.length ≤ n) :
    recvCallback (List.replicate n 0) n received =
      received ++ List.replicate (n - received.length) 0 := by
  have hempty : precision (List.replicate n 0) = [] := by
    cases n <;> simp [precision, List.replicate_succ]
  simp [recvCallback, hempty, Nat.not_lt.mpr h]

theorem split_at_zero {s : List UInt8} (h : (0 : UInt8) ∈ s) :
    ∃ more, s = precision s ++ 0 :: more := by
  obtain ⟨front, more, rfl, hfront⟩ := List.eq_append_cons_of_mem h
  exact ⟨more, by rw [precision_append_zero hfront]⟩

theorem precision_append_zeros (s : List UInt8) (n : Nat) :
    precision (s ++ List.replicate n 0) = precision s := by
  unfold precision
  induction s with
  | nil => cases n <;> simp [List.replicate_succ]
  | cons b s ih =>
    by_cases hb : b = 0
    · simp [hb]
    · simpa [hb] using ih

theorem buffer_eq (bytes : List UInt8) :
    ∃ more, recvCallback (List.replicate httpResponsePayloadLen 0) httpResponsePayloadLen
        (bytes.take (httpResponsePayloadLen - 1)) = responseText bytes ++ 0 :: more ∧
      more.length + 1 = slackOf bytes := by
  have hle : (bytes.take (httpResponsePayloadLen - 1)).length ≤ httpResponsePayloadLen - 1 :=
    List.length_take_le ..
  have hpos : 0 < httpResponsePayloadLen := by decide
  rw [recvCallback_cleared (by omega), slackOf, responseText]
  generalize bytes.take (httpResponsePayloadLen - 1) = received at hle ⊢
  obtain ⟨more, hsplit⟩ := split_at_zero
    (s := received ++ List.replicate (httpResponsePayloadLen - received.length) 0)
    (List.mem_append_right _ (by simp; omega))
  rw [precision_append_zeros] at hsplit
  refine ⟨more, hsplit, ?_⟩
  have hsum := congrArg List.length hsplit
  simp only [List.length_append, List.length_replicate, List.length_cons] at hsum
  omega

theorem prefix_append_cons {needle s : List UInt8} {b : UInt8} (h : b ∉ needle)
    (more : List UInt8) : needle <+: s ++ b :: more ↔ needle <+: s := by
  constructor
  · intro hprefix
    rcases List.prefix_or_prefix_of_prefix hprefix (List.prefix_append s _) with hle | hle
    · exact hle
    · obtain ⟨t, rfl⟩ := hle
      rw [List.prefix_append_right_inj] at hprefix
      cases t with
      | nil => simp
      | cons b' t =>
        obtain ⟨rfl, -⟩ := List.cons_prefix_cons.mp hprefix
        exact absurd (List.mem_append_right s List.mem_cons_self) h
  · exact fun hprefix => hprefix.trans (List.prefix_append s _)

theorem storeDeviceSecret_none {code : Slice} (h0 : (0 : UInt8) ∉ payload)
    (h : parseDynregResult payload (text "deviceSecret") (payload.length + (more.length + 1)) code =
      none) : storeDeviceSecret (payload ++ 0 :: more) code deviceSecret = .outside := by
  have hrest : (payload ++ 0 :: more).length = payload.length + (more.length + 1) := by simp
  rw [← hrest] at h
  unfold storeDeviceSecret
  rw [precision_append_zero h0, h]

theorem storeDeviceSecret_found {res : Int} {code : Slice} (h0 : (0 : UInt8) ∉ payload)
    (h : parseDynregResult payload (text "deviceSecret") (payload.length + (more.length + 1)) code =
      some (res, slice))
    (hdrop : payload.drop slice.start = v) (hsum : slice.start + v.length = payload.length)
    (hlen : slice.len = (inner v).length) :
    storeDeviceSecret (payload ++ 0 :: more) code deviceSecret =
      if iotxDeviceSecretLen < (inner v).length then
        .returned stateHttpDynregInvalidDs deviceSecret.val
      else .returned State.success (inner v ++ deviceSecret.val.drop (inner v).length) := by
  have hinner : (inner v).length ≤ v.length := (List.takeWhile_sublist _).length_le
  have hrest : (payload ++ 0 :: more).length = payload.length + (more.length + 1) := by simp
  rw [← hrest] at h
  have hlog : ¬ (0 < slice.len ∧ (payload ++ 0 :: more).length ≤ slice.start) := by omega
  have hend : ¬ (0 < slice.len ∧ (payload ++ 0 :: more).length < slice.start + slice.len) := by
    omega
  unfold storeDeviceSecret
  rw [precision_append_zero h0, h]
  dsimp only
  rw [if_neg hlog, if_neg hend, hlen, List.drop_append_of_le_length (by omega), hdrop,
    List.take_append_of_le_length hinner, take_inner]

end Buffer

/-! ## What is asked -/

/-- The text is an object, its member `code` is 200, and `secret` is the string of the member
`deviceSecret` of its member `data`. -/
def Grants (bytes secret : List UInt8) : Prop :=
  ∃ (lead object tail : List UInt8) (members data : List Member) (levels levels' : Nat),
    bytes = lead ++ (object ++ tail) ∧ Spaces rfc8259 lead ∧ Spaces rfc8259 tail ∧
      IsObject rfc8259 levels members object ∧
      (∃ m, named members (text "code") = some m ∧ IsNatural 200 m.value.text) ∧
      (∃ m, named members (text "data") = some m ∧ IsObject rfc8259 levels' data m.value.text) ∧
      ∃ m raw, named data (text "deviceSecret") = some m ∧ m.value.text = quote raw ∧
        unescape raw = some secret

/-- A call returns an error, or leaves the granted secret as a string in the array; and it reads
nothing outside. -/
def InventsNothing (reply : Reply) : Outcome → Prop
  | .outside => False
  | .returned res deviceSecret =>
    res < State.success ∨ ∃ bytes secret, reply = .body bytes ∧ Grants bytes secret ∧
      cString deviceSecret = some secret

/-- The text is an object, its member `code` is 200, and `front` stands in front of `raw` in quotes,
the value of the member `deviceSecret` of its member `data`. -/
def GrantsAt (bytes front raw : List UInt8) : Prop :=
  ∃ (lead object tail : List UInt8) (members data as as' : List Member) (m m' : Member)
      (levels levels' : Nat),
    bytes = lead ++ (object ++ tail) ∧ Spaces rfc8259 lead ∧ Spaces rfc8259 tail ∧
      IsObject rfc8259 levels members object ∧
      (∃ m, named members (text "code") = some m ∧ IsNatural 200 m.value.text) ∧
      FirstNamed members (text "data") as m ∧ IsObject rfc8259 levels' data m.value.text ∧
      FirstNamed data (text "deviceSecret") as' m' ∧ m'.value.text = quote raw ∧
      front = lead ++ (frontOf as m ++ frontOf as' m')

/-- In the text of the buffer `34 :: v` stands behind `front`, and its string is whole if it has the
bytes `raw`. -/
def Holds (bytes front v raw : List UInt8) : Prop :=
  responseText bytes = front ++ 34 :: v ∧ raw.length < v.length

/-- The responses that are refused, and those with a secret. -/
inductive Sound (stateHandler : Bool) (bytes : List UInt8) (deviceSecret : SecretArray) : Prop where
  /-- What stands behind the last key in a row up to the code is not 200. -/
  | refused {found : Bool} {r : List UInt8}
      (hcode : Row (text "code") (slackOf bytes) (responseText bytes) (responseText bytes) found r)
      (hroom : 3 ≤ r.length + slackOf bytes) (hrefused : ¬ text "200" <+: r)
      (hformat : stateHandler = true → takesNoArgument r = true)
  /-- The string that is found behind the beginning of the data is too long, or the value of the
  member with the secret, without escape sequences, and the array holds a zero at its length. -/
  | granted {found found' : Bool} {r d v : List UInt8}
      (hcode : Row (text "code") (slackOf bytes) (responseText bytes) (responseText bytes) found r)
      (hgranted : text "200" <+: r)
      (hdata : Row (text "data") (slackOf bytes) (responseText bytes) (responseText bytes) found' d)
      (hsecret : Row (text "deviceSecret") (slackOf bytes) [] d.tail true (34 :: v))
      (hright : iotxDeviceSecretLen < (inner v).length ∨ ∃ front raw, GrantsAt bytes front raw ∧
        Holds bytes front v raw ∧ (92 : UInt8) ∉ raw ∧
        (deviceSecret.val.drop raw.length).head? = some 0)

/-- No string is found for the secret, and the search leaves the place of another value. -/
def Stale (bytes : List UInt8) : Prop :=
  ∃ found r found' d v,
    Row (text "code") (slackOf bytes) (responseText bytes) (responseText bytes) found r ∧
      text "200" <+: r ∧
      Row (text "data") (slackOf bytes) (responseText bytes) (responseText bytes) found' d ∧
      Row (text "deviceSecret") (slackOf bytes) [] d.tail false v

/-- A string is found for the secret, and it is not the whole value of the member with it. -/
def Astray (bytes : List UInt8) : Prop :=
  ∃ found r found' d v,
    Row (text "code") (slackOf bytes) (responseText bytes) (responseText bytes) found r ∧
      text "200" <+: r ∧
      Row (text "data") (slackOf bytes) (responseText bytes) (responseText bytes) found' d ∧
      Row (text "deviceSecret") (slackOf bytes) [] d.tail true (34 :: v) ∧
      ∃ front raw, GrantsAt bytes front raw ∧ ¬ Holds bytes front v raw

/-! ## The member with the secret -/

section Member

variable {bytes front raw secret v : List UInt8}

theorem isBody_of_quote {n : Nat} {k : Kind} (h : IsValue rfc8259 n k (quote raw)) :
    isBody raw = true := by
  cases k with
  | null | false | true =>
    rw [IsValue] at h
    cases h
  | number =>
    rw [IsValue] at h
    obtain ⟨sign, int, frac, exp, heq, hsign, hint, -⟩ := h
    have hdigit : ∀ b s, int = b :: s → b ≠ 34 := by
      rintro b s rfl rfl
      rcases hint with hint | ⟨⟨-, hint⟩, -⟩
      · cases hint
      · exact absurd (hint 34 List.mem_cons_self) (by decide)
    rcases hsign with rfl | rfl
    · cases int with
      | nil => exact absurd hint (by simp [Digits])
      | cons b s => exact absurd (List.cons.inj heq).1.symm (hdigit b s rfl)
    · cases heq
  | string =>
    rw [IsValue] at h
    obtain ⟨body, hbody, heq⟩ := h
    obtain rfl : raw = body := by simpa [quote] using heq
    exact hbody
  | array size | object size =>
    cases n with
    | zero => exact h.elim
    | succ n =>
      obtain ⟨inner, heq, -⟩ := h
      cases heq

theorem Grants.at (h : Grants bytes secret) :
    ∃ front raw, GrantsAt bytes front raw ∧ unescape raw = some secret := by
  obtain ⟨lead, object, tail, members, data, levels, levels', hbytes, hlead, htail, hobject, hcode,
    ⟨m, hm, hdata⟩, m', raw, hm', hraw, hsecret⟩ := h
  obtain ⟨as, has⟩ := named_eq_some_iff.mp hm
  obtain ⟨as', has'⟩ := named_eq_some_iff.mp hm'
  exact ⟨_, raw, ⟨lead, object, tail, members, data, as, as', m, m', levels, levels', hbytes, hlead,
    htail, hobject, hcode, has, hdata, has', hraw, rfl⟩, hsecret⟩

theorem GrantsAt.grants (h : GrantsAt bytes front raw) (hplain : (92 : UInt8) ∉ raw) :
    Grants bytes raw := by
  obtain ⟨lead, object, tail, members, data, as, as', m, m', levels, levels', hbytes, hlead, htail,
    hobject, hcode, has, hdata, has', hraw, -⟩ := h
  exact ⟨lead, object, tail, members, data, levels, levels', hbytes, hlead, htail, hobject, hcode,
    ⟨m, named_eq_some_iff.mpr ⟨as, has⟩, hdata⟩, m', raw, named_eq_some_iff.mpr ⟨as', has'⟩, hraw,
    unescape_of_plain fun b hb heq => hplain (heq ▸ hb)⟩

theorem GrantsAt.split (h : GrantsAt bytes front raw) :
    isBody raw = true ∧ ∃ behind, bytes = front ++ (quote raw ++ behind) := by
  obtain ⟨lead, object, tail, members, data, as, as', m, m', levels, levels', rfl, -, -, hobject, -,
    ⟨⟨bs, rfl⟩, -⟩, hdata, ⟨⟨bs', rfl⟩, -⟩, hraw, rfl⟩ := h
  obtain ⟨-, -, -, -, hvalue, -⟩ := hdata.1 m' (List.mem_append_right _ List.mem_cons_self)
  rw [hraw] at hvalue
  obtain ⟨behind, hsplit⟩ := isObject_split hobject
  obtain ⟨behind', hsplit'⟩ := isObject_split hdata
  refine ⟨isBody_of_quote hvalue, behind' ++ (behind ++ tail), ?_⟩
  rw [hsplit, hsplit', hraw]
  simp only [List.append_assoc]

theorem responseText_prefix (bytes : List UInt8) : responseText bytes <+: bytes :=
  (List.takeWhile_prefix _).trans (List.take_prefix _ _)

theorem GrantsAt.value (h : GrantsAt bytes front raw) (hv : Holds bytes front v raw) :
    ∃ rest, v = raw ++ 34 :: rest := by
  obtain ⟨-, behind, hbytes⟩ := h.split
  have hprefix := responseText_prefix bytes
  rw [hv.1] at hprefix
  rw [hbytes, List.prefix_append_right_inj, quote, List.cons_append, List.cons_prefix_cons]
    at hprefix
  have hprefix' : v <+: (raw ++ [34]) ++ behind := hprefix.2
  have hraw : raw ++ [34] <+: v := by
    refine List.prefix_of_prefix_length_le (List.prefix_append _ behind) hprefix' ?_
    rw [List.length_append, List.length_singleton]
    exact hv.2
  obtain ⟨rest, hrest⟩ := hraw
  exact ⟨rest, by rw [← hrest, List.append_assoc]; rfl⟩

theorem inner_append {s : List UInt8} (h : 34 ∉ s) (rest : List UInt8) :
    inner (s ++ 34 :: rest) = s := by
  have hall : ∀ b ∈ s, decide (b ≠ 34) = true := fun b hb =>
    decide_eq_true fun heq => h (heq ▸ hb)
  rw [inner, List.takeWhile_append_of_pos hall]
  simp

theorem stored_iff (hbody : isBody raw = true) (hsecret : unescape raw = some secret)
    (rest place : List UInt8) :
    cString (inner (raw ++ 34 :: rest) ++ place.drop (inner (raw ++ 34 :: rest)).length) =
        some secret ↔ (92 : UInt8) ∉ raw ∧ (place.drop raw.length).head? = some 0 := by
  have hun := unescaped hbody hsecret
  have h0 := zero_not_mem_of_isBody hbody
  by_cases hquote : (34 : UInt8) ∈ raw
  · -- a quote is escaped: it is in the secret at a place where the string that is stored has none
    refine iff_of_false (fun hstored => ?_) ?_
    · obtain ⟨hmem, hlt⟩ := hun.quote hquote
      obtain ⟨more, hmore⟩ : secret <+: inner (raw ++ 34 :: rest) ++
          place.drop (inner (raw ++ 34 :: rest)).length := by
        unfold cString at hstored
        split at hstored
        · exact Option.some.inj hstored ▸ List.takeWhile_prefix _
        · cases hstored
      have hidx : (inner (raw ++ 34 :: rest) ++
          place.drop (inner (raw ++ 34 :: rest)).length).idxOf 34 = secret.idxOf 34 := by
        rw [← hmore, List.idxOf_append_of_mem hmem]
      have hnot : (34 : UInt8) ∉ inner (raw ++ 34 :: rest) := fun h => by
        simpa using List.mem_takeWhile_imp h
      rw [List.idxOf_append_of_notMem hnot, length_inner, List.idxOf_append_of_mem hquote] at hidx
      omega
    · rintro ⟨hplain, -⟩
      have hsame := unescape_of_plain fun b hb heq => hplain (heq ▸ hb)
      rw [hsecret, Option.some.injEq] at hsame
      obtain ⟨-, hlt⟩ := hun.quote hquote
      rw [hsame] at hlt
      exact Nat.lt_irrefl _ hlt
  · rw [inner_append hquote]
    generalize place.drop raw.length = behind
    unfold cString
    constructor
    · intro hstored
      split at hstored
      next hzero =>
        rw [Option.some.injEq, precision_of_no_zero h0] at hstored
        have hlen := congrArg List.length hstored
        have hle := hun.le
        rw [List.length_append] at hlen
        refine ⟨hun.plain (by omega), ?_⟩
        have hnil : precision behind = [] := List.length_eq_zero_iff.mp (by omega)
        cases behind with
        | nil => exact absurd (by simpa using hzero) h0
        | cons b behind =>
          by_cases hb : b = 0
          · rw [hb]
            rfl
          · simp [precision, hb] at hnil
      next => cases hstored
    · rintro ⟨hplain, hhead⟩
      have hsame := unescape_of_plain fun b hb heq => hplain (heq ▸ hb)
      rw [hsecret, Option.some.injEq] at hsame
      obtain ⟨more, rfl⟩ := List.head?_eq_some_iff.mp hhead
      rw [if_pos (by simp), precision_of_no_zero h0, hsame]
      simp [precision]

end Member

section Response

variable {payload more r d v bytes : List UInt8} {res : Int} {slice : Slice} {found : Bool}
  {stateHandler : Bool} {deviceSecret : SecretArray}

theorem take_buffer (hdrop : payload.drop slice.start = r)
    (hsum : slice.start + r.length = payload.length) :
    ((payload ++ 0 :: more).drop slice.start).take 3 = text "200" ↔ text "200" <+: r := by
  have h0 : (0 : UInt8) ∉ text "200" := by decide
  have hlen : (text "200").length = 3 := by decide
  rw [List.drop_append_of_le_length (by omega), hdrop, ← prefix_append_cons h0 more,
    List.prefix_iff_eq_take, hlen]
  exact eq_comm

theorem parseResponse_none (h0 : (0 : UInt8) ∉ payload)
    (hsearch : parseDynregResult payload (text "code") (payload.length + (more.length + 1)) ⟨0, 0⟩ =
      none) : parseResponse stateHandler (payload ++ 0 :: more) deviceSecret = .outside := by
  have hbuf : (payload ++ 0 :: more).length = payload.length + (more.length + 1) := by simp
  rw [← hbuf] at hsearch
  unfold parseResponse
  rw [precision_append_zero h0]
  dsimp only
  rw [hsearch]
  exact ite_self _

theorem parseResponse_eq (h0 : (0 : UInt8) ∉ payload)
    (hsearch : parseDynregResult payload (text "code") (payload.length + (more.length + 1)) ⟨0, 0⟩ =
      some (res, slice))
    (hdrop : payload.drop slice.start = r) (hsum : slice.start + r.length = payload.length) :
    parseResponse stateHandler (payload ++ 0 :: more) deviceSecret =
      if r.length + (more.length + 1) < 3 then .outside
      else if text "200" <+: r then
        match parseDynregResult payload (text "data") (payload.length + (more.length + 1))
          ⟨0, 0⟩ with
        | none => .outside
        | some (_, data) =>
          storeDeviceSecret ((payload ++ 0 :: more).drop (data.start + 1)) slice deviceSecret
      else if stateHandler = true ∧ takesNoArgument r = false then .outside
      else .returned stateHttpDynregFailResp deviceSecret.val := by
  have hbuf : (payload ++ 0 :: more).length = payload.length + (more.length + 1) := by simp
  have hmem : ¬ (0 : UInt8) ∉ payload ++ 0 :: more := by simp
  unfold parseResponse
  rw [precision_append_zero h0, if_neg hmem, hbuf, hsearch]
  dsimp only
  rw [hdrop]
  by_cases hroom : r.length + (more.length + 1) < 3
  · rw [if_pos (by omega), if_pos hroom]
  rw [if_neg (by omega), if_neg hroom]
  by_cases hcode : text "200" <+: r
  · rw [if_pos hcode]
    exact if_neg (not_not.mpr ((take_buffer hdrop hsum).mpr hcode))
  · rw [if_pos (mt (take_buffer hdrop hsum).mp hcode), if_neg hcode]

theorem data_ne_nil {slack : Nat} (hcode : text "200" <+: r) (hdrop : payload.drop slice.start = r)
    (h : Row (text "data") slack payload payload found d) : d ≠ [] := by
  rintro rfl
  rcases h.place_or with ⟨-, rfl⟩ | hvalue
  · rw [List.drop_nil] at hdrop
    rw [← hdrop] at hcode
    exact absurd hcode (by decide)
  · exact absurd hvalue (by decide)

theorem drop_data (hd : d ≠ []) (hdrop : payload.drop slice.start = d)
    (hsum : slice.start + d.length = payload.length) :
    (payload ++ 0 :: more).drop (slice.start + 1) = d.tail ++ 0 :: more := by
  have hpos := List.length_pos_iff.mpr hd
  rw [List.drop_append_of_le_length (by omega), ← List.drop_drop, hdrop, List.drop_one]

theorem not_mem_data (h0 : (0 : UInt8) ∉ payload) (hdrop : payload.drop slice.start = d) :
    (0 : UInt8) ∉ d.tail := fun hmem => by
  rw [← hdrop] at hmem
  exact h0 (List.mem_of_mem_drop (List.mem_of_mem_tail hmem))

theorem fetch_of_rows {found found' : Bool}
    (hcode : Row (text "code") (slackOf bytes) (responseText bytes) (responseText bytes) found r)
    (hgranted : text "200" <+: r)
    (hdata : Row (text "data") (slackOf bytes) (responseText bytes) (responseText bytes) found' d)
    (hsecret : Row (text "deviceSecret") (slackOf bytes) [] d.tail true (34 :: v)) :
    fetchDynregHttpResp stateHandler (.body bytes) deviceSecret =
      if iotxDeviceSecretLen < (inner v).length then
        .returned stateHttpDynregInvalidDs deviceSecret.val
      else .returned State.success (inner v ++ deviceSecret.val.drop (inner v).length) := by
  obtain ⟨more, hbuf, hmore⟩ := buffer_eq bytes
  have h0 : (0 : UInt8) ∉ responseText bytes := zero_not_mem_precision
  rw [← hmore] at hcode hdata hsecret
  obtain ⟨res, slice, hsearch, hdrop, hsum⟩ := search_of_row (.inl (List.prefix_refl _)) hcode
  obtain ⟨res', data, hsearchData, hdropData, hsumData⟩ :=
    search_of_row (.inr (List.prefix_refl _)) hdata
  have hne := data_ne_nil hgranted hdrop hdata
  have hlen := hgranted.length_le
  have hthree : (text "200").length = 3 := by decide
  obtain ⟨res'', found, hsearchSecret, hdropSecret, hsumSecret, hlenSecret⟩ :=
    search_of_secret slice hsecret
  have htail : (0 : UInt8) ∉ d.tail := not_mem_data h0 hdropData
  simp only [fetchDynregHttpResp, hbuf]
  rw [parseResponse_eq h0 hsearch hdrop hsum, if_neg (by omega), if_pos hgranted, hsearchData]
  dsimp only
  rw [drop_data hne hdropData hsumData,
    storeDeviceSecret_found htail hsearchSecret hdropSecret hsumSecret hlenSecret]

theorem inventsNothing_of_sound (h : Sound stateHandler bytes deviceSecret) :
    InventsNothing (.body bytes)
      (fetchDynregHttpResp stateHandler (.body bytes) deviceSecret) := by
  cases h with
  | refused hcode hroom hrefused hformat =>
    obtain ⟨more, hbuf, hmore⟩ := buffer_eq bytes
    have h0 : (0 : UInt8) ∉ responseText bytes := zero_not_mem_precision
    rw [← hmore] at hcode hroom
    obtain ⟨res, slice, hsearch, hdrop, hsum⟩ := search_of_row (.inl (List.prefix_refl _)) hcode
    simp only [fetchDynregHttpResp, hbuf]
    rw [parseResponse_eq h0 hsearch hdrop hsum, if_neg (by omega), if_neg hrefused, if_neg]
    · exact .inl (by decide)
    · rintro ⟨hhandler, hformat'⟩
      rw [hformat hhandler] at hformat'
      cases hformat'
  | granted hcode hgranted hdata hsecret hright =>
    rw [fetch_of_rows hcode hgranted hdata hsecret]
    split
    · exact .inl (by decide)
    next hshort =>
      obtain ⟨front, raw, hgrants, hv, hplain, hzero⟩ := hright.resolve_left hshort
      obtain ⟨rest, rfl⟩ := hgrants.value hv
      exact .inr ⟨bytes, raw, rfl, hgrants.grants hplain, (stored_iff hgrants.split.1
        (unescape_of_plain fun b hb heq => hplain (heq ▸ hb)) rest _).mpr ⟨hplain, hzero⟩⟩

theorem sound_of_inventsNothing (hstale : ¬ Stale bytes) (hastray : ¬ Astray bytes)
    (h : InventsNothing (.body bytes)
      (fetchDynregHttpResp stateHandler (.body bytes) deviceSecret)) :
    Sound stateHandler bytes deviceSecret := by
  obtain ⟨more, hbuf, hmore⟩ := buffer_eq bytes
  have h0 : (0 : UInt8) ∉ responseText bytes := zero_not_mem_precision
  simp only [fetchDynregHttpResp, hbuf] at h
  generalize htext : responseText bytes = payload at h h0
  cases hsearch : parseDynregResult payload (text "code") (payload.length + (more.length + 1))
      ⟨0, 0⟩ with
  | none =>
    rw [parseResponse_none h0 hsearch] at h
    exact h.elim
  | some result =>
    obtain ⟨res, slice⟩ := result
    obtain ⟨found, r, hcode, hdrop, hsum⟩ := row_of_search (.inl (List.prefix_refl _)) hsearch
    rw [parseResponse_eq h0 hsearch hdrop hsum] at h
    rw [hmore, ← htext] at hcode
    split at h
    · exact h.elim
    next hroom =>
    split at h
    next hgranted =>
      cases hsearchData : parseDynregResult payload (text "data")
          (payload.length + (more.length + 1)) ⟨0, 0⟩ with
      | none =>
        rw [hsearchData] at h
        exact h.elim
      | some result =>
        obtain ⟨res', data⟩ := result
        obtain ⟨found', d, hdata, hdropData, hsumData⟩ :=
          row_of_search (.inr (List.prefix_refl _)) hsearchData
        have hne := data_ne_nil hgranted hdrop hdata
        have htail : (0 : UInt8) ∉ d.tail := not_mem_data h0 hdropData
        rw [hmore, ← htext] at hdata
        rw [hsearchData] at h
        dsimp only at h
        rw [drop_data hne hdropData hsumData] at h
        cases hsearchSecret : parseDynregResult d.tail (text "deviceSecret")
            (d.tail.length + (more.length + 1)) slice with
        | none =>
          rw [storeDeviceSecret_none htail hsearchSecret] at h
          exact h.elim
        | some result =>
          obtain ⟨res'', slice'⟩ := result
          obtain ⟨found'', v, hsecret, hslice⟩ := secret_of_search hsearchSecret
          rw [hmore] at hsecret
          cases found'' with
          | false => exact absurd ⟨found, r, found', d, v, hcode, hgranted, hdata, hsecret⟩ hstale
          | true =>
            obtain ⟨v, rfl, hdropSecret, hsumSecret, hlenSecret⟩ := hslice rfl
            refine .granted hcode hgranted hdata hsecret ?_
            rw [storeDeviceSecret_found htail hsearchSecret hdropSecret hsumSecret hlenSecret] at h
            split at h
            next hlong => exact .inl hlong
            next hshort =>
              rcases h with hres | ⟨bytes', secret, heq, hgrants, hstring⟩
              · exact absurd hres (by decide)
              · cases heq
                obtain ⟨front, raw, hat, hsecret'⟩ := hgrants.at
                have hv : Holds bytes front v raw := by
                  by_contra hnot
                  exact hastray ⟨found, r, found', d, v, hcode, hgranted, hdata, hsecret, front,
                    raw, hat, hnot⟩
                obtain ⟨rest, rfl⟩ := hat.value hv
                exact .inr ⟨front, raw, hat, hv,
                  (stored_iff hat.split.1 hsecret' rest _).mp hstring⟩
    next hrefused =>
      split at h
      · exact h.elim
      next hformat =>
        refine .refused hcode (by omega) hrefused fun hhandler => ?_
        exact Bool.not_eq_false _ ▸ fun hfalse => hformat ⟨hhandler, hfalse⟩

end Response

/-! ## The replies of the service -/

def stringMember (field : List UInt8 × List UInt8) : Member :=
  ⟨[], field.1, [], ⟨[], .string, quote field.2, []⟩⟩

def codeMember : Member := ⟨[], text "code", [], ⟨[], .number, text "200", []⟩⟩

def dataMember (fields : List (List UInt8 × List UInt8)) : Member :=
  ⟨[], text "data", [], ⟨[], .object fields.length, objectText (fields.map stringMember), []⟩⟩

/-- The code, an object of strings as the data, and other strings, without spaces. -/
def serviceReply (fields others : List (List UInt8 × List UInt8)) : List UInt8 :=
  objectText (codeMember :: dataMember fields :: others.map stringMember)

/-- Nothing is escaped. -/
def IsPlainField (field : List UInt8 × List UInt8) : Prop :=
  (∀ b ∈ field.1, isPlain b = true) ∧ ∀ b ∈ field.2, isPlain b = true

section Service

variable {fields others as bs : List (List UInt8 × List UInt8)} {secret place : List UInt8}
  {slack : Nat}

theorem bytes_stringMember (field : List UInt8 × List UInt8) (s : List UInt8) :
    (stringMember field).bytes ++ s =
      34 :: (field.1 ++ 34 :: 58 :: 34 :: (field.2 ++ 34 :: s)) := by
  simp [stringMember, Member.bytes, Element.bytes, quote]

theorem not_quote_of_plain {s : List UInt8} (h : ∀ b ∈ s, isPlain b = true) : 34 ∉ s :=
  fun hmem => absurd (h 34 hmem) (by decide)

theorem passed_string {s : List UInt8} (h : 34 ∉ s) (rest : List UInt8) :
    (34 :: (s ++ 34 :: rest)).drop
      (passed (text "deviceSecret") (34 :: (s ++ 34 :: rest))) = rest := by
  have hcode : ¬ text "code" <+: text "deviceSecret" := by decide
  have hdata : ¬ text "data" <+: text "deviceSecret" := by decide
  rw [passed, if_neg hcode, if_neg hdata, List.tail_cons, List.idxOf_append_of_notMem h,
    List.idxOf_cons_self, List.drop_succ_cons, Nat.add_zero, ← List.drop_drop, List.drop_left]
  rfl

theorem row_fields (bs : List (List UInt8 × List UInt8))
    (hroom : (text "deviceSecret").length ≤ slack)
    (hplain : ∀ a ∈ as, IsPlainField a) (hname : ∀ a ∈ as, ¬ text "deviceSecret" <+: a.1)
    (tail : List UInt8) :
    ∃ rest, joined ((as ++ (text "deviceSecret", secret) :: bs).map
        fun a => (stringMember a).bytes) ++ tail =
          (as.map stringMember).flatMap (fun m => m.bytes ++ [44]) ++
            34 :: (text "deviceSecret" ++ 34 :: 58 :: 34 :: (secret ++ 34 :: rest)) ∧
      ∀ place, Row (text "deviceSecret") slack place
        (joined ((as ++ (text "deviceSecret", secret) :: bs).map
          fun a => (stringMember a).bytes) ++ tail) true (34 :: (secret ++ 34 :: rest)) := by
  have hquote : (34 : UInt8) ∉ text "deviceSecret" := by decide
  induction as with
  | nil =>
    obtain ⟨rest, hrest⟩ := joined_map_cons (fun a => (stringMember a).bytes)
      (text "deviceSecret", secret) bs tail
    rw [List.nil_append, hrest, bytes_stringMember]
    refine ⟨rest, rfl, fun place => .found ⟨hquote, rfl⟩ (hasValue_secret.mpr ⟨_, rfl⟩) ?_ ?_⟩
    · rw [List.length_append]
      omega
    · exact List.prefix_append _ _
  | cons a as ih =>
    obtain ⟨hkey, hvalue⟩ := hplain a List.mem_cons_self
    obtain ⟨rest, hrest, hrow⟩ := ih (fun a ha => hplain a (List.mem_cons_of_mem _ ha))
      fun a ha => hname a (List.mem_cons_of_mem _ ha)
    have hjoined : joined ((a :: as ++ (text "deviceSecret", secret) :: bs).map
        fun a => (stringMember a).bytes) ++ tail = (stringMember a).bytes ++ 44 :: (joined
          ((as ++ (text "deviceSecret", secret) :: bs).map fun a => (stringMember a).bytes) ++
            tail) := by
      rw [List.cons_append, List.map_cons, joined_cons (by simp), List.append_assoc,
        List.cons_append]
    refine ⟨rest, ?_, fun place => ?_⟩
    · rw [hjoined, hrest, List.map_cons, List.flatMap_cons, List.append_assoc, List.append_assoc]
      rfl
    rw [hjoined, bytes_stringMember]
    refine .other ⟨not_quote_of_plain hkey, rfl⟩ (hasValue_secret.mpr ⟨_, rfl⟩) ?_ ?_ ?_
    · rw [List.length_append, List.length_cons]
      omega
    · rw [prefix_append_cons hquote]
      exact hname a List.mem_cons_self
    · rw [passed_string (not_quote_of_plain hvalue)]
      exact .byte (by decide) (hrow _)

theorem serviceReply_eq (fields others : List (List UInt8 × List UInt8)) :
    ∃ tail, serviceReply fields others = 123 :: 34 :: (text "code" ++ 34 :: 58 :: (text "200" ++
      44 :: 34 :: (text "data" ++ 34 :: 58 ::
        (objectText (fields.map stringMember) ++ tail)))) := by
  obtain ⟨tail, htail⟩ := joined_map_cons Member.bytes (dataMember fields)
    (others.map stringMember) [125]
  refine ⟨tail, ?_⟩
  rw [serviceReply, objectText, List.map_cons, joined_cons (by simp), List.append_assoc,
    List.cons_append, htail]
  simp [codeMember, dataMember, Member.bytes, Element.bytes, quote]

theorem hasValue_data {v : List UInt8} : hasValue (text "data") v = true ↔ v.head? = some 123 := by
  have hcode : ¬ text "code" <+: text "data" := by decide
  rw [hasValue, if_neg hcode, if_pos (List.prefix_refl _), decide_eq_true_eq]

def secretFront (as bs : List (List UInt8 × List UInt8)) (secret : List UInt8) : List UInt8 :=
  frontOf [codeMember] (dataMember (as ++ (text "deviceSecret", secret) :: bs)) ++
    frontOf (as.map stringMember) (stringMember (text "deviceSecret", secret))

theorem rows_serviceReply {text' : List UInt8} (hroom : (text "deviceSecret").length ≤ slack)
    (hplain : ∀ a ∈ as, IsPlainField a) (hname : ∀ a ∈ as, ¬ text "deviceSecret" <+: a.1)
    (htext : text' = serviceReply (as ++ (text "deviceSecret", secret) :: bs) others) :
    ∃ r d rest, Row (text "code") slack text' text' true r ∧ text "200" <+: r ∧
      Row (text "data") slack text' text' true d ∧
      Row (text "deviceSecret") slack [] d.tail true (34 :: (secret ++ 34 :: rest)) ∧
      text' = secretFront as bs secret ++ 34 :: (secret ++ 34 :: rest) := by
  obtain ⟨tail, heq⟩ := serviceReply_eq (as ++ (text "deviceSecret", secret) :: bs) others
  have hquote : (34 : UInt8) ∉ text "code" ∧ (34 : UInt8) ∉ text "data" := by decide
  have hlen : (text "deviceSecret").length = 12 ∧ (text "code").length = 4 ∧
      (text "data").length = 4 := by decide
  have h200 : text "200" = [50, 48, 48] := by decide
  obtain ⟨rest, hrest, hrow⟩ := @row_fields _ secret _ bs hroom hplain hname (125 :: tail)
  rw [objectText, List.map_map, List.cons_append, ← htext] at heq
  have hmap : Member.bytes ∘ stringMember = fun a => (stringMember a).bytes := rfl
  have hend : [125] ++ tail = 125 :: tail := rfl
  rw [hmap, List.append_assoc, hend] at heq
  generalize joined _ ++ 125 :: tail = content at hrow hrest heq
  have heq : text' = 123 :: 34 :: (text "code" ++ 34 :: 58 :: (text "200" ++
      44 :: 34 :: (text "data" ++ 34 :: 58 :: 123 :: content))) := heq
  refine ⟨text "200" ++ 44 :: 34 :: (text "data" ++ 34 :: 58 :: 123 :: content), 123 :: content,
    rest, ?_, List.prefix_append _ _, ?_, hrow [], ?_⟩
  · nth_rewrite 2 [heq]
    refine .byte (by decide) (.found ⟨hquote.1, rfl⟩ rfl ?_ (List.prefix_append _ _))
    rw [List.length_append]
    omega
  · nth_rewrite 2 [heq]
    refine .byte (by decide) (.skipped ⟨hquote.1, rfl⟩ ?_ ?_)
    · rw [Bool.eq_false_iff, Ne, hasValue_data, h200]
      simp
    · rw [h200]
      refine .byte (by decide) (.byte (by decide) (.byte (by decide) (.found ⟨hquote.2, rfl⟩
        (hasValue_data.mpr rfl) ?_ (List.prefix_append _ _))))
      rw [List.length_append]
      omega
  · rw [heq, hrest]
    simp [secretFront, frontOf, codeMember, dataMember, stringMember, Member.bytes, Element.bytes,
      quote]

theorem zero_not_mem_stringMember {a : List UInt8 × List UInt8} (h : IsPlainField a) :
    (0 : UInt8) ∉ (stringMember a).bytes := by
  intro hmem
  rw [← List.append_nil (stringMember a).bytes, bytes_stringMember] at hmem
  have hkey : (0 : UInt8) ∉ a.1 := fun hmem => absurd (h.1 0 hmem) (by decide)
  have hvalue : (0 : UInt8) ∉ a.2 := fun hmem => absurd (h.2 0 hmem) (by decide)
  simp [hkey, hvalue] at hmem

theorem zero_not_mem_objectText {ms : List Member} (h : ∀ m ∈ ms, (0 : UInt8) ∉ m.bytes) :
    (0 : UInt8) ∉ objectText ms := by
  intro hmem
  rw [objectText, List.mem_cons, List.mem_append] at hmem
  rcases hmem with hmem | hmem | hmem
  · exact absurd hmem (by decide)
  · rcases mem_joined hmem with hmem | ⟨p, hp, hmem⟩
    · exact absurd hmem (by decide)
    · obtain ⟨m, hm, rfl⟩ := List.mem_map.mp hp
      exact h m hm hmem
  · exact absurd hmem (by decide)

theorem zero_not_mem_serviceReply (hfields : ∀ a ∈ fields, IsPlainField a)
    (hothers : ∀ a ∈ others, IsPlainField a) : (0 : UInt8) ∉ serviceReply fields others := by
  have hmap : ∀ {as : List (List UInt8 × List UInt8)}, (∀ a ∈ as, IsPlainField a) →
      ∀ m ∈ as.map stringMember, (0 : UInt8) ∉ m.bytes := fun h m hm => by
    obtain ⟨a, ha, rfl⟩ := List.mem_map.mp hm
    exact zero_not_mem_stringMember (h a ha)
  have hdata := zero_not_mem_objectText (hmap hfields)
  refine zero_not_mem_objectText ?_
  simp only [List.forall_mem_cons]
  refine ⟨by decide, ?_, hmap hothers⟩
  intro hmem
  have hkey : (0 : UInt8) ∉ text "data" := by decide
  simp [dataMember, Member.bytes, Element.bytes, quote, hkey, hdata] at hmem

theorem responseText_eq {bytes : List UInt8} (hlen : bytes.length < httpResponsePayloadLen)
    (h0 : (0 : UInt8) ∉ bytes) : responseText bytes = bytes := by
  rw [responseText, List.take_of_length_le (by omega), precision_eq_self h0]

theorem stringMember_ok {n : Nat} {a : List UInt8 × List UInt8} (h : IsPlainField a) :
    (stringMember a).Ok rfc8259 (IsValue rfc8259 n) := by
  refine ⟨spaces_nil, isBody_of_plain h.1, spaces_nil, spaces_nil, ?_, spaces_nil⟩
  have hvalue : ∃ body, rfc8259.body body ∧ quote a.2 = quote body :=
    ⟨a.2, isBody_of_plain h.2, rfl⟩
  simpa only [stringMember, IsValue] using hvalue

theorem isNumber_200 : IsNumber (text "200") :=
  ⟨[], text "200", [], [], by decide, .inl rfl,
    .inr ⟨⟨by decide, by decide⟩, by decide⟩, .inl rfl, .inl rfl⟩

theorem unescape_of_isPlain {s : List UInt8} (h : ∀ b ∈ s, isPlain b = true) :
    unescape s = some s :=
  unescape_of_plain fun b hb heq => absurd (h b hb) (heq ▸ by decide)

theorem serviceReply_grantsAt
    (hfields : ∀ a ∈ as ++ (text "deviceSecret", secret) :: bs, IsPlainField a)
    (hothers : ∀ a ∈ others, IsPlainField a) (hname : ∀ a ∈ as, a.1 ≠ text "deviceSecret") :
    GrantsAt (serviceReply (as ++ (text "deviceSecret", secret) :: bs) others)
      (secretFront as bs secret) secret := by
  have hsecret := hfields _ (List.mem_append_right _ List.mem_cons_self)
  have hdata : IsObject rfc8259 0 ((as ++ (text "deviceSecret", secret) :: bs).map stringMember)
      (objectText ((as ++ (text "deviceSecret", secret) :: bs).map stringMember)) := by
    refine isObject_objectText (by simp) fun m hm => ?_
    obtain ⟨a, ha, rfl⟩ := List.mem_map.mp hm
    exact stringMember_ok (hfields a ha)
  have hcode : unescape codeMember.key = some (text "code") := by decide
  have hname200 : IsNatural 200 (text "200") :=
    ⟨isNumber_200, by decide, by decide⟩
  have hdataKey : unescape (text "data") = some (text "data") := by decide
  refine ⟨[], _, [], codeMember :: dataMember _ :: others.map stringMember, _, [codeMember],
    as.map stringMember, dataMember (as ++ (text "deviceSecret", secret) :: bs),
    stringMember (text "deviceSecret", secret), 1, 0, (List.append_nil _).symm, spaces_nil,
    spaces_nil, isObject_objectText (List.cons_ne_nil _ _) ?_, ⟨codeMember, ?_, hname200⟩,
    ⟨⟨others.map stringMember, rfl⟩, hdataKey, ?_⟩, hdata, ⟨⟨bs.map stringMember, ?_⟩,
    unescape_of_isPlain hsecret.1, fun m hm => ?_⟩, rfl, rfl⟩
  · simp only [List.forall_mem_cons]
    refine ⟨?_, ?_, fun m hm => ?_⟩
    · have hbody : isBody (text "code") = true := by decide
      refine ⟨spaces_nil, hbody, spaces_nil, spaces_nil, ?_, spaces_nil⟩
      have hnumber : rfc8259.number (text "200") := isNumber_200
      simpa only [codeMember, IsValue] using hnumber
    · have hbody : isBody (text "data") = true := by decide
      refine ⟨spaces_nil, hbody, spaces_nil, spaces_nil, ?_, spaces_nil⟩
      have hvalue := isValue_of_isObject hdata
      rwa [List.length_map] at hvalue
    · obtain ⟨a, ha, rfl⟩ := List.mem_map.mp hm
      exact stringMember_ok (hothers a ha)
  · rw [named, List.find?_cons_of_pos (by simpa using hcode)]
  · refine List.forall_mem_singleton.mpr ?_
    rw [hcode]
    decide
  · rw [List.map_append, List.map_cons]
  · obtain ⟨a, ha, rfl⟩ := List.mem_map.mp hm
    have hkey := (hfields a (List.mem_append_left _ ha)).1
    rw [stringMember, unescape_of_isPlain hkey, Ne, Option.some.injEq]
    exact hname a ha

theorem serviceReply_sound (stateHandler : Bool) (deviceSecret : SecretArray)
    (hfields : ∀ a ∈ as ++ (text "deviceSecret", secret) :: bs, IsPlainField a)
    (hothers : ∀ a ∈ others, IsPlainField a) (hname : ∀ a ∈ as, ¬ text "deviceSecret" <+: a.1)
    (hzero : (deviceSecret.val.drop secret.length).head? = some 0)
    (hlen : (serviceReply (as ++ (text "deviceSecret", secret) :: bs) others).length +
      (text "deviceSecret").length ≤ httpResponsePayloadLen) :
    Sound stateHandler (serviceReply (as ++ (text "deviceSecret", secret) :: bs) others)
      deviceSecret := by
  have hgrants := serviceReply_grantsAt hfields hothers
    fun a ha heq => hname a ha (heq ▸ List.prefix_refl _)
  have hpos : 0 < (text "deviceSecret").length := by decide
  have hwhole := responseText_eq (by omega) (zero_not_mem_serviceReply hfields hothers)
  have hroom : (text "deviceSecret").length ≤
      slackOf (serviceReply (as ++ (text "deviceSecret", secret) :: bs) others) := by
    rw [slackOf, hwhole]
    omega
  obtain ⟨r, d, rest, hcode, hgranted, hdata, hrow, htext⟩ := rows_serviceReply hroom
    (fun a ha => hfields a (List.mem_append_left _ ha)) hname hwhole
  have hplain : (92 : UInt8) ∉ secret := fun hmem =>
    absurd ((hfields _ (List.mem_append_right _ List.mem_cons_self)).2 92 hmem) (by decide)
  refine .granted hcode hgranted hdata hrow (.inr ⟨_, secret, hgrants, ⟨htext, ?_⟩, hplain, hzero⟩)
  rw [List.length_append, List.length_cons]
  omega

end Service

/-! ## The result -/

/-- The calls that end in an error before the response is looked at, and the sound responses. -/
def Answers (stateHandler : Bool) (reply : Reply) (info : DevMetaInfo) : Prop :=
  iotxProductKeyLen < info.productKey.strlen ∨ iotxProductSecretLen < info.productSecret.strlen ∨
    iotxDeviceNameLen < info.deviceName.strlen ∨
      ∀ bytes, reply = .body bytes → Sound stateHandler bytes info.deviceSecret

theorem inventsNothing_iff {stateHandler : Bool} {reply : Reply} {info : DevMetaInfo} :
    InventsNothing reply (httpDynamicRegister stateHandler reply info) ↔
      iotxProductKeyLen < info.productKey.strlen ∨
        iotxProductSecretLen < info.productSecret.strlen ∨
          iotxDeviceNameLen < info.deviceName.strlen ∨
            InventsNothing reply (fetchDynregHttpResp stateHandler reply info.deviceSecret) := by
  unfold httpDynamicRegister
  split
  next hlong => exact iff_of_true (.inl (by decide)) (.inl hlong)
  next hpk =>
  split
  next hlong => exact iff_of_true (.inl (by decide)) (.inr (.inl hlong))
  next hps =>
  split
  next hlong => exact iff_of_true (.inl (by decide)) (.inr (.inr (.inl hlong)))
  next hdn =>
  rw [or_iff_right hpk, or_iff_right hps, or_iff_right hdn]
  cases hfetch : fetchDynregHttpResp stateHandler reply info.deviceSecret with
  | outside => rfl
  | returned res deviceSecret =>
    dsimp only [InventsNothing]
    split
    · rfl
    next hres => rw [or_iff_right hres, or_iff_right (by decide)]

/-- The secret that is stored is the granted one where the keys in a row lead to its member, and
only there, unless a value is stored that another search has left or that is no such member's. -/
theorem inventsNothing_answers (stateHandler : Bool) (reply : Reply) (info : DevMetaInfo) :
    (Answers stateHandler reply info →
        InventsNothing reply (httpDynamicRegister stateHandler reply info)) ∧
      ((∀ bytes, reply = .body bytes → ¬ Stale bytes ∧ ¬ Astray bytes) →
        InventsNothing reply (httpDynamicRegister stateHandler reply info) →
          Answers stateHandler reply info) := by
  rw [inventsNothing_iff]
  have hfailed : ∀ error, InventsNothing (.failed error)
      (fetchDynregHttpResp stateHandler (.failed error) info.deviceSecret) :=
    fun error => .inl error.property
  constructor
  · refine Or.imp_right (Or.imp_right (Or.imp_right fun h => ?_))
    cases reply with
    | failed error => exact hfailed error
    | body bytes => exact inventsNothing_of_sound (h bytes rfl)
  · intro hstale
    refine Or.imp_right (Or.imp_right (Or.imp_right fun h bytes hbytes => ?_))
    subst hbytes
    exact sound_of_inventsNothing (hstale bytes rfl).1 (hstale bytes rfl).2 h

/-! A field and the secret. -/

def deviceNameField : List UInt8 × List UInt8 := (text "deviceName", text "dn")

def plainReply : List UInt8 :=
  serviceReply ([deviceNameField] ++ (text "deviceSecret", text "s3") :: []) []

def plainInfo : DevMetaInfo where
  productKey := CStr.empty
  productSecret := CStr.empty
  deviceName := CStr.empty
  deviceSecret := ⟨List.replicate 65 0, by decide⟩

theorem plain_reply_granted :
    InventsNothing (.body plainReply)
        (httpDynamicRegister true (.body plainReply) plainInfo) ∧
      httpDynamicRegister true (.body plainReply) plainInfo =
        .returned State.success (text "s3" ++ List.replicate 63 0) := by
  refine ⟨?_, by decide +kernel⟩
  have hfields : ∀ a ∈ [deviceNameField] ++ (text "deviceSecret", text "s3") :: [],
      IsPlainField a := by
    unfold IsPlainField
    decide
  have hname : ∀ a ∈ [deviceNameField], ¬ text "deviceSecret" <+: a.1 := by decide
  have hsound : Sound true plainReply plainInfo.deviceSecret :=
    serviceReply_sound true _ hfields (fun _ h => absurd h List.not_mem_nil) hname
      (by decide) (by decide)
  have hanswers : Answers true (.body plainReply) plainInfo := by
    refine Or.inr (Or.inr (Or.inr fun bytes heq => ?_))
    injection heq with heq
    exact heq ▸ hsound
  have h := inventsNothing_answers true (.body plainReply) plainInfo
  generalize httpDynamicRegister true (.body plainReply) plainInfo = outcome at h ⊢
  exact h.1 hanswers

theorem mem_of_grants {bytes secret : List UInt8} (h : Grants bytes secret) (hplain : 92 ∉ bytes)
    {b : UInt8} (hb : b ∈ text "data") : b ∈ bytes := by
  obtain ⟨lead, object, tail, members, data, _, _, rfl, -, -, ⟨-, inner, rfl, hinner⟩, -,
    ⟨m, hm, -⟩, -⟩ := h
  have hmem := List.mem_of_find?_eq_some hm
  have hname : unescape m.key = some (text "data") := by simpa using List.find?_some hm
  have hinner : inner = joined (members.map Member.bytes) :=
    (hinner.resolve_left fun h => List.ne_nil_of_mem hmem h.1).2
  have hkey : ∀ c ∈ m.key, c ∈ lead ++ (123 :: (inner ++ [125]) ++ tail) := fun c hc => by
    have hbytes : c ∈ m.bytes := by simp [Member.bytes, quote, hc]
    have hjoined := mem_joined_of_mem (List.mem_map_of_mem hmem) hbytes
    simp [hinner, hjoined]
  rw [unescape_of_plain fun c hc heq => hplain (heq ▸ hkey c hc), Option.some.injEq] at hname
  exact hkey b (hname ▸ hb)

/-- A response with nothing but a code: the bytes behind the first digit are stored. -/
theorem code_alone_stored :
    httpDynamicRegister false (.body (text "\x7b\"code\":200\x7d")) plainInfo =
        .returned State.success (text "00\x7d" ++ List.replicate 62 0) ∧
      ¬ InventsNothing (.body (text "\x7b\"code\":200\x7d"))
        (httpDynamicRegister false (.body (text "\x7b\"code\":200\x7d")) plainInfo) := by
  have hstored : httpDynamicRegister false (.body (text "\x7b\"code\":200\x7d")) plainInfo =
      .returned State.success (text "00\x7d" ++ List.replicate 62 0) := by decide +kernel
  refine ⟨hstored, ?_⟩
  rw [hstored]
  rintro (hres | ⟨bytes, secret, heq, hgrants, -⟩)
  · exact absurd hres (by decide)
  · cases heq
    have hmem := mem_of_grants hgrants (by decide) (show (116 : UInt8) ∈ text "data" by
      decide)
    exact absurd hmem (by decide)

end AliyunIot.Dynreg
