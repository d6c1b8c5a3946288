import AliyunIot.DevSign.Sign

/-!
# Sign-in data against the reference values

The client id, the sign source, the user name and the host name always fit their arrays with
room to spare or are refused. `device_id` is one byte short: a product key and a device name of
the greatest lengths fill it, and the next `strlen` reads behind it. The guard of the host name
refuses a text that would just fit, and its 16-bit length wraps for a long custom domain.
-/

namespace AliyunIot.DevSign

open CharBuf

/-! ## Reference values -/

/-- The device id `pk.dn`. -/
def refDeviceId (info : IotxDevMetaInfo) : CStr := info.productKey ++ textDot ++ info.deviceName

/-- The key-value pairs, each followed by a comma. -/
def kvText (kvs : List (CStr × CStr)) : CStr :=
  kvs.foldr (fun kv rest => kv.1 ++ textEquals ++ kv.2 ++ textComma ++ rest) CStr.empty

/-- `|k=v,...|`: the pairs with commas in between and bars around them. -/
def refPairs (kvs : List (CStr × CStr)) : List UInt8 :=
  textBar.val
    ++ textComma.val.intercalate (kvs.map fun kv => kv.1.val ++ textEquals.val ++ kv.2.val)
    ++ textBar.val

def refClientid (info : IotxDevMetaInfo) : List UInt8 :=
  (refDeviceId info).val ++ refPairs (clientidKv secureMode)

def refUsername (info : IotxDevMetaInfo) : CStr :=
  info.deviceName ++ textAmpersand ++ info.productKey

def refSource (info : IotxDevMetaInfo) : CStr :=
  (signPieces (refDeviceId info) info.deviceName info.productKey).foldl (· ++ ·) CStr.empty

def refPassword (hmac : List UInt8 → List UInt8 → Vector UInt8 32) (info : IotxDevMetaInfo) :
    List UInt8 :=
  hex2str (hmac (refSource info).val info.deviceSecret.val).toList

def refHostname (info : IotxDevMetaInfo) (region : Nat) (domain : CStr) : CStr :=
  if region = iotxCloudRegionCustom then domain else info.productKey ++ textDot ++ domain

/-- The array holds the bytes as a string. -/
def Reads (buf : CharBuf) (s : List UInt8) : Prop := ∃ t : CStr, buf.text = some t ∧ t.val = s

structure Reference (hmac : List UInt8 → List UInt8 → Vector UInt8 32) (region : Nat)
    (info : IotxDevMetaInfo) (domain : CStr) (out : IotxSignMqtt) : Prop where
  clientid : Reads out.clientid (refClientid info)
  username : Reads out.username (refUsername info).val
  password : Reads out.password (refPassword hmac info)
  hostname : Reads out.hostname (refHostname info region domain).val

/-! ## Helper functions -/

section Functions

variable {info : IotxDevMetaInfo} {id : CStr} {kvs : List (CStr × CStr)} {s : CStr}

theorem fillDeviceId_eq (info : IotxDevMetaInfo) :
    fillDeviceId info.productKey info.deviceName = some (filled 53 (refDeviceId info)) := by
  have hpk : info.productKey.strlen ≤ 20 := info.productKey_le
  have hdn : info.deviceName.strlen ≤ 32 := info.deviceName_le
  have hdot : textDot.strlen = 1 := rfl
  show (((zeros 53).memcpy info.productKey).bind fun buf => (buf.strAppend textDot).bind fun buf =>
    buf.strAppend info.deviceName) = _
  rw [memcpy_zeros (by omega), Option.bind_some, strAppend_filled (by omega) (by omega),
    Option.bind_some, strAppend_filled (by rw [CStr.strlen_append]; omega)
      (by rw [CStr.strlen_append]; omega), refDeviceId]

theorem strlen_refDeviceId : (refDeviceId info).strlen
    = info.productKey.strlen + info.deviceName.strlen + 1 := by
  have hdot : textDot.strlen = 1 := rfl
  rw [refDeviceId, CStr.strlen_append, CStr.strlen_append, hdot]
  omega

theorem strlen_kvText_cons (key value : CStr) (kvs : List (CStr × CStr)) :
    (kvText ((key, value) :: kvs)).strlen
      = key.strlen + value.strlen + 2 + (kvText kvs).strlen := by
  have he : textEquals.strlen = 1 := rfl
  have hc : textComma.strlen = 1 := rfl
  rw [kvText, List.foldr_cons, ← kvText]
  simp only [CStr.strlen_append, he, hc]
  omega

theorem clientidLoop_eq (h : s.strlen + (kvText kvs).strlen < 200) :
    clientidLoop kvs (filled 200 s) = some (State.success, filled 200 (s ++ kvText kvs)) := by
  induction kvs generalizing s with
  | nil =>
    have hnil : s ++ kvText [] = s := Subtype.ext (List.append_nil s.val)
    rw [clientidLoop, hnil]
  | cons kv kvs ih =>
    obtain ⟨key, value⟩ := kv
    rw [strlen_kvText_cons] at h
    have he : textEquals.strlen = 1 := rfl
    have hc : textComma.strlen = 1 := rfl
    have hguard : ¬ s.strlen + key.strlen + value.strlen + 2 ≥ 200 := by omega
    have hrest := ih (s := s ++ key ++ textEquals ++ value ++ textComma)
      (by simp only [CStr.strlen_append]; omega)
    have hcons : s ++ kvText ((key, value) :: kvs)
        = s ++ key ++ textEquals ++ value ++ textComma ++ kvText kvs := by
      apply Subtype.ext
      simp [kvText]
    rw [hcons, ← hrest, clientidLoop, text_filled (by omega)]
    simp only [Option.bind_eq_bind, Option.bind_some, hguard, if_false]
    rw [strAppend_filled (by omega) (by omega), Option.bind_some,
      strAppend_filled (by simp only [CStr.strlen_append]; omega)
        (by simp only [CStr.strlen_append]; omega), Option.bind_some,
      strAppend_filled (by simp only [CStr.strlen_append]; omega)
        (by simp only [CStr.strlen_append]; omega), Option.bind_some,
      strAppend_filled (by simp only [CStr.strlen_append]; omega)
        (by simp only [CStr.strlen_append]; omega), Option.bind_some]

theorem strlen_kvText : (kvText (clientidKv secureMode)).strlen = 97 := by decide

/-- The client id of a device id that is terminated in its array. -/
def clientidText (id : CStr) : CStr :=
  (id ++ textBar ++ kvText (clientidKv secureMode)).setLast 0x7C (by decide)

theorem strlen_clientid (id : CStr) :
    (id ++ textBar ++ kvText (clientidKv secureMode)).strlen = id.strlen + 98 := by
  have hbar : textBar.strlen = 1 := rfl
  rw [CStr.strlen_append, CStr.strlen_append, strlen_kvText, hbar]

theorem signGetClientid_eq (h : id.strlen < 53) :
    signGetClientid (filled 53 id) none 0
      = some (State.success, filled 200 (clientidText id)) := by
  have hbar : textBar.strlen = 1 := rfl
  have hguard : ¬ id.strlen + 1 ≥ 200 := by omega
  have hlen := strlen_clientid id
  have hloop : clientidLoop (clientidKv secureMode) (filled 200 (id ++ textBar))
      = some (State.success, filled 200 (id ++ textBar ++ kvText (clientidKv secureMode))) :=
    clientidLoop_eq (by rw [strlen_kvText, CStr.strlen_append]; omega)
  simp only [signGetClientid, text_filled h, Option.bind_eq_bind, Option.bind_some, hguard,
    if_false, memcpy_zeros (show id.strlen ≤ 200 by omega),
    strAppend_filled (show id.strlen < 200 by omega)
      (show id.strlen + textBar.strlen ≤ 200 by omega)]
  have hlast : (filled 200 (id ++ textBar ++ kvText (clientidKv secureMode))).set
      ((id ++ textBar ++ kvText (clientidKv secureMode)).strlen - 1) 0x7C
        = filled 200 (clientidText id) :=
    set_last (by decide) (by rw [hlen]; omega)
  have htext := text_filled (show (id ++ textBar ++ kvText (clientidKv secureMode)).strlen < 200 by
    rw [hlen]; omega)
  have hmode : (if (0 : UInt8) > 0 then modeItlsDnsId2 else secureMode) = secureMode := rfl
  simp only [hmode, hloop, appendCustom, htext, Option.bind_some]
  rw [hlast]
  rfl

theorem refClientid_eq (info : IotxDevMetaInfo) :
    (clientidText (refDeviceId info)).val = refClientid info := by
  have hpairs : (textBar ++ kvText (clientidKv secureMode)).val.dropLast ++ [0x7C]
      = refPairs (clientidKv secureMode) := by decide
  rw [refClientid, ← hpairs, clientidText, CStr.val_setLast, CStr.append_assoc, CStr.val_append,
    List.dropLast_append_of_ne_nil (by decide), List.append_assoc]

theorem strlen_clientidText (h : id.strlen < 53) : (clientidText id).strlen < 200 := by
  have hlen : (id ++ textBar ++ kvText (clientidKv secureMode)).val.length = id.strlen + 98 :=
    strlen_clientid id
  rw [clientidText, CStr.strlen, CStr.val_setLast, List.length_append, List.length_dropLast, hlen,
    List.length_singleton]
  omega

theorem strlen_refUsername (info : IotxDevMetaInfo) : (refUsername info).strlen < 64 := by
  have hpk : info.productKey.strlen ≤ 20 := info.productKey_le
  have hdn : info.deviceName.strlen ≤ 32 := info.deviceName_le
  have hamp : textAmpersand.strlen = 1 := rfl
  rw [refUsername, CStr.strlen_append, CStr.strlen_append, hamp]
  omega

theorem signGetClientid_full (h : id.strlen = 53) (kv : Option CStr) (itls : UInt8) :
    signGetClientid (filled 53 id) kv itls = none := by
  simp [signGetClientid, text_full h]

theorem zero_not_mem_refPassword (hmac : List UInt8 → List UInt8 → Vector UInt8 32)
    (info : IotxDevMetaInfo) : (0 : UInt8) ∉ refPassword hmac info :=
  fun h => (plain_infraHex2str h).1 rfl

theorem length_refPassword (hmac : List UInt8 → List UInt8 → Vector UInt8 32)
    (info : IotxDevMetaInfo) : (refPassword hmac info).length = 64 := by
  rw [refPassword, hex2str, infraHex2str_length, Vector.length_toList]

theorem strlen_refSource_le (info : IotxDevMetaInfo) : (refSource info).strlen ≤ 187 := by
  have hpk : info.productKey.strlen ≤ 20 := info.productKey_le
  have hdn : info.deviceName.strlen ≤ 32 := info.deviceName_le
  have hid := @strlen_refDeviceId info
  have hsum := CStr.strlen_foldl (s := CStr.empty)
    (signPieces (refDeviceId info) info.deviceName info.productKey)
  have hpieces : ((signPieces (refDeviceId info) info.deviceName info.productKey).map
      CStr.strlen).sum = 8 + ((refDeviceId info).strlen + (10 + (info.deviceName.strlen
        + (10 + (info.productKey.strlen + (9 + (13 + 0))))))) := rfl
  have hempty : CStr.empty.strlen = 0 := rfl
  rw [refSource, hsum, hpieces]
  omega

theorem generate_eq (hmac : List UInt8 → List UInt8 → Vector UInt8 32) (info : IotxDevMetaInfo)
    (h : (refDeviceId info).strlen < 53) :
    iotxGenerateSignString hmac (filled 53 (refDeviceId info)) info.deviceName info.productKey
      info.deviceSecret (zeros 65) = some (State.success, filled 65 ⟨refPassword hmac info,
        zero_not_mem_refPassword hmac info⟩) := by
  have hpk : info.productKey.strlen ≤ 20 := info.productKey_le
  have hdn : info.deviceName.strlen ≤ 32 := info.deviceName_le
  have hts : timestampValue.strlen = 13 := rfl
  have hguard : ¬ (50 + (refDeviceId info).strlen + info.deviceName.strlen
      + info.productKey.strlen + timestampValue.strlen) % 65536 ≥ 200 := by omega
  have hlen : (refSource info).strlen < 200 :=
    Nat.lt_of_le_of_lt (strlen_refSource_le info) (by decide)
  have hsource : (signPieces (refDeviceId info) info.deviceName info.productKey).foldlM strAppend
      (zeros 200) = some (filled 200 (refSource info)) := by
    rw [zeros_eq_filled]
    exact foldlM_strAppend hlen
  have hdigits : (hex2str (hmac (refSource info).val info.deviceSecret.val).toList).length = 64 :=
    length_refPassword hmac info
  simp only [iotxGenerateSignString, text_filled h, Option.bind_eq_bind, Option.bind_some, hguard,
    if_false, hsource, text_filled hlen, hdigits, length_zeros]
  rw [if_pos (by decide), filled, zeros, List.drop_replicate]
  have hstr : CStr.strlen ⟨refPassword hmac info, zero_not_mem_refPassword hmac info⟩ = 64 :=
    length_refPassword hmac info
  rw [hstr]
  rfl

/-! ## Host name and user name -/

theorem signUsername_eq (info : IotxDevMetaInfo) :
    signUsername info.deviceName info.productKey (zeros 64)
      = some (State.success, filled 64 (refUsername info)) := by
  have hpk : info.productKey.strlen ≤ 20 := info.productKey_le
  have hdn : info.deviceName.strlen ≤ 32 := info.deviceName_le
  have hamp : textAmpersand.strlen = 1 := rfl
  have hguard : ¬ (info.deviceName.strlen + info.productKey.strlen + 2) % 65536 ≥ 64 := by omega
  have hname : (info.deviceName ++ textAmpersand).strlen = info.deviceName.strlen + 1 :=
    CStr.strlen_append
  simp only [signUsername, hguard, if_false, Option.bind_eq_bind,
    memcpy_zeros (show info.deviceName.strlen ≤ 64 by omega), Option.bind_some,
    strAppend_filled (show info.deviceName.strlen < 64 by omega)
      (show info.deviceName.strlen + textAmpersand.strlen ≤ 64 by omega),
    strAppend_filled (show (info.deviceName ++ textAmpersand).strlen < 64 by omega)
      (show (info.deviceName ++ textAmpersand).strlen + info.productKey.strlen ≤ 64 by omega)]
  rfl

/-- The lengths of a custom domain at which its guard does what the array allows. -/
def HostFits (domain : CStr) : Prop :=
  domain.strlen ≠ 63 ∧ (65535 ≤ domain.strlen → 64 ≤ (domain.strlen + 1) % 65536)

theorem signHostname_custom (pk domain : CStr) :
    signHostname (some domain) 5 pk (zeros 64) =
      if (domain.strlen + 1) % 65536 ≥ 64 then some (State.mqttSignHostnameBufShort, zeros 64)
      else if domain.strlen ≤ 64 then some (State.success, filled 64 domain) else none := by
  have hdomain : gInfraMqttDomain (some domain) 5 = some domain := rfl
  simp only [signHostname, hdomain, if_true]
  split
  · rfl
  · split
    · rename_i hle
      rw [memcpy_zeros hle]
      rfl
    · rename_i hle
      rw [memcpy, if_neg (by rw [length_zeros]; exact hle)]
      rfl

theorem domain_lengths {region : Nat} (h : region < 5) (custom : Option CStr) :
    ∃ domain, gInfraMqttDomain custom region = some domain ∧ domain.strlen ≤ 39 := by
  match region with
  | 0 => exact ⟨_, rfl, by decide⟩
  | 1 => exact ⟨_, rfl, by decide⟩
  | 2 => exact ⟨_, rfl, by decide⟩
  | 3 => exact ⟨_, rfl, by decide⟩
  | 4 => exact ⟨_, rfl, by decide⟩

theorem signHostname_region {region : Nat} {domain : CStr} {custom : Option CStr}
    (info : IotxDevMetaInfo) (hregion : region < 5)
    (hdomain : gInfraMqttDomain custom region = some domain) (hlen : domain.strlen ≤ 39) :
    signHostname custom region info.productKey (zeros 64)
      = some (State.success, filled 64 (refHostname info region domain)) := by
  have hpk : info.productKey.strlen ≤ 20 := info.productKey_le
  have hdot : textDot.strlen = 1 := rfl
  have hguard : ¬ (info.productKey.strlen + domain.strlen + 2) % 65536 ≥ 64 := by omega
  have hname : (info.productKey ++ textDot).strlen = info.productKey.strlen + 1 :=
    CStr.strlen_append
  have hcustom : region ≠ iotxCloudRegionCustom := Nat.ne_of_lt hregion
  simp only [signHostname, hcustom, if_false, hdomain, Option.bind_eq_bind, Option.bind_some,
    hguard, memcpy_zeros (show info.productKey.strlen ≤ 64 by omega),
    strAppend_filled (show info.productKey.strlen < 64 by omega)
      (show info.productKey.strlen + textDot.strlen ≤ 64 by omega),
    strAppend_filled (show (info.productKey ++ textDot).strlen < 64 by omega)
      (show (info.productKey ++ textDot).strlen + domain.strlen ≤ 64 by omega)]
  rw [refHostname, if_neg hcustom]
  rfl

end Functions

/-! ## `IOT_Sign_MQTT` -/

section Sign

variable (hmac : List UInt8 → List UInt8 → Vector UInt8 32) {custom : Option CStr} {region : Nat}
  {info : IotxDevMetaInfo} {signout : IotxSignMqtt}

/-- What is filled in besides the host name. -/
def signed (info : IotxDevMetaInfo) (hostname : CharBuf) : IotxSignMqtt where
  hostname := hostname
  port := 443
  clientid := filled 200 (clientidText (refDeviceId info))
  username := filled 64 (refUsername info)
  password := filled 65 ⟨refPassword hmac info, zero_not_mem_refPassword hmac info⟩

theorem iotSignMqtt_full (hregion : region < 6)
    (h : info.productKey.strlen + info.deviceName.strlen = 52) :
    iotSignMqtt hmac custom region (some info) signout = none := by
  have hid : (refDeviceId info).strlen = 53 := by rw [strlen_refDeviceId, h]
  simp only [iotSignMqtt, Nat.not_le.mpr hregion, if_false, fillDeviceId_eq,
    Option.bind_eq_bind, Option.bind_some, signGetClientid_full hid, Option.bind_none]

theorem iotSignMqtt_host (hregion : region < 6)
    (h : info.productKey.strlen + info.deviceName.strlen < 52) :
    iotSignMqtt hmac custom region (some info) signout =
      (signHostname custom region info.productKey (zeros 64)).bind fun r =>
        if r.1 < State.success then
          some (r.1, { signed hmac info r.2 with port := 0, username := zeros 64 })
        else some (State.success, signed hmac info r.2) := by
  have hid : (refDeviceId info).strlen < 53 := by rw [strlen_refDeviceId]; omega
  simp only [iotSignMqtt, Nat.not_le.mpr hregion, if_false, fillDeviceId_eq,
    Option.bind_eq_bind, Option.bind_some, signGetClientid_eq hid, generate_eq hmac info hid,
    IotxSignMqtt.cleared, signUsername_eq, signed]
  rfl

theorem reference_signed {domain : CStr} (hclient : (refDeviceId info).strlen < 53)
    (hhost : (refHostname info region domain).strlen < 64) :
    Reference hmac region info domain
      (signed hmac info (filled 64 (refHostname info region domain))) := by
  have hpass : CStr.strlen ⟨refPassword hmac info, zero_not_mem_refPassword hmac info⟩ < 65 := by
    rw [CStr.strlen, length_refPassword]
    omega
  have hclientid := strlen_clientidText hclient
  have huser := strlen_refUsername info
  refine ⟨⟨_, text_filled hclientid, refClientid_eq info⟩, ⟨_, text_filled huser, rfl⟩,
    ⟨_, text_filled hpass, rfl⟩, ⟨_, text_filled hhost, rfl⟩⟩

/-- The texts and their terminators fit the outputs. -/
def Fits (info : IotxDevMetaInfo) (region : Nat) (domain : CStr) : Prop :=
  (refClientid info).length < devSignClientIdMaxlen ∧
    (refUsername info).strlen < devSignUsernameMaxlen ∧
    (refHostname info region domain).strlen < devSignHostnameMaxlen

/-- No buffer is left, a success has the reference values, and what fits is not refused. -/
def SignsRight (custom : Option CStr) (region : Nat) (metaInfo : Option IotxDevMetaInfo)
    (signout : IotxSignMqtt) : Prop :=
  ∃ res out, iotSignMqtt hmac custom region metaInfo signout = some (res, out) ∧
    (res = State.success → ∃ info domain, metaInfo = some info ∧
      gInfraMqttDomain custom region = some domain ∧ Reference hmac region info domain out) ∧
    (res ≠ State.success → res < State.success ∧ ∀ info domain, metaInfo = some info →
      gInfraMqttDomain custom region = some domain → ¬ Fits info region domain)

theorem gInfraMqttDomain_none (h : 6 ≤ region) : gInfraMqttDomain custom region = none := by
  match region with
  | n + 6 => rfl

theorem signsRight_refused {metaInfo : Option IotxDevMetaInfo} {res : Int} {out : IotxSignMqtt}
    (h : iotSignMqtt hmac custom region metaInfo signout = some (res, out))
    (hres : res < State.success)
    (hfits : ∀ info domain, metaInfo = some info → gInfraMqttDomain custom region = some domain →
      ¬ Fits info region domain) : SignsRight hmac custom region metaInfo signout :=
  ⟨res, out, h, fun heq => absurd heq (Int.ne_of_lt hres), fun _ => ⟨hres, hfits⟩⟩

theorem signsRight_region (hregion : region < 5)
    (h : info.productKey.strlen + info.deviceName.strlen < 52) :
    SignsRight hmac custom region (some info) signout := by
  obtain ⟨domain, hdomain, hlen⟩ := domain_lengths hregion custom
  have hpk : info.productKey.strlen ≤ 20 := info.productKey_le
  have hdot : textDot.strlen = 1 := rfl
  refine ⟨State.success, signed hmac info (filled 64 (refHostname info region domain)), ?_,
    fun _ => ⟨info, domain, rfl, hdomain, reference_signed hmac ?_ ?_⟩, fun hne => absurd rfl hne⟩
  · rw [iotSignMqtt_host hmac (by omega) h, signHostname_region info hregion hdomain hlen]
    rfl
  · rw [strlen_refDeviceId]
    omega
  · rw [refHostname, if_neg (Nat.ne_of_lt hregion), CStr.strlen_append, CStr.strlen_append]
    omega

theorem signsRight_custom (domain : CStr)
    (h : info.productKey.strlen + info.deviceName.strlen < 52) :
    SignsRight hmac (some domain) 5 (some info) signout ↔ HostFits domain := by
  have hhost : refHostname info 5 domain = domain := rfl
  have hid : (refDeviceId info).strlen < 53 := by rw [strlen_refDeviceId]; omega
  have heq : iotSignMqtt hmac (some domain) 5 (some info) signout = _ :=
    iotSignMqtt_host hmac (by decide : 5 < 6) h
  rw [signHostname_custom] at heq
  have hfits : Fits info 5 domain ↔ domain.strlen < 64 := by
    have hclient : (refClientid info).length < 200 := by
      rw [← refClientid_eq]
      exact strlen_clientidText hid
    exact ⟨fun hfit => hfit.2.2, fun hlt => ⟨hclient, strlen_refUsername info, hlt⟩⟩
  by_cases hguard : (domain.strlen + 1) % 65536 ≥ 64
  · -- refused
    rw [if_pos hguard, Option.bind_some, if_pos (by decide)] at heq
    constructor
    · rintro ⟨res, out, hout, _, hno⟩
      rw [heq, Option.some.injEq, Prod.mk.injEq] at hout
      obtain ⟨rfl, rfl⟩ := hout
      have hlong := (hno (by decide)).2 info domain rfl rfl
      rw [hfits] at hlong
      exact ⟨by omega, fun _ => hguard⟩
    · rintro ⟨hne, _⟩
      refine signsRight_refused hmac heq (by decide) ?_
      intro _ _ hinfo hdomain
      obtain rfl := Option.some.inj hinfo
      obtain rfl := Option.some.inj hdomain
      rw [hfits]
      omega
  · rw [if_neg hguard] at heq
    by_cases hle : domain.strlen ≤ 64
    · -- copied
      rw [if_pos hle, Option.bind_some, if_neg (Int.lt_irrefl State.success)] at heq
      refine iff_of_true ?_ ⟨by omega, by omega⟩
      exact ⟨State.success, _, heq, fun _ => ⟨info, domain, rfl, rfl,
        reference_signed hmac hid (by rw [hhost]; omega)⟩, fun hne => absurd rfl hne⟩
    · -- the length has wrapped
      rw [if_neg hle, Option.bind_none] at heq
      refine iff_of_false ?_ (fun hhf => hguard (hhf.2 (by omega)))
      rintro ⟨res, out, hout, _⟩
      rw [heq] at hout
      cases hout

/-- The data are right unless product key and device name together have their greatest length,
or the custom domain just fits the host name or is so long that its 16-bit length wraps. -/
theorem signsRight_iff (metaInfo : Option IotxDevMetaInfo) :
    SignsRight hmac custom region metaInfo signout ↔
      ∀ info, metaInfo = some info → region < iotxMqttDomainNumber →
        info.productKey.strlen + info.deviceName.strlen ≠ 52 ∧
        (region = iotxCloudRegionCustom → ∀ domain, custom = some domain → HostFits domain) := by
  cases metaInfo with
  | none =>
    refine iff_of_true (signsRight_refused hmac rfl (by decide) ?_) (fun _ h => by cases h)
    exact fun _ _ h => by cases h
  | some info =>
    have hpk : info.productKey.strlen ≤ 20 := info.productKey_le
    have hdn : info.deviceName.strlen ≤ 32 := info.deviceName_le
    simp only [Option.some.injEq, forall_eq']
    by_cases hregion : region < 6
    · by_cases hfull : info.productKey.strlen + info.deviceName.strlen = 52
      · refine iff_of_false ?_ (fun h => (h hregion).1 hfull)
        rintro ⟨res, out, hout, _⟩
        rw [iotSignMqtt_full hmac hregion hfull] at hout
        cases hout
      · have hlt : info.productKey.strlen + info.deviceName.strlen < 52 := by omega
        by_cases hcustom : region = 5
        · subst hcustom
          cases custom with
          | none =>
            refine iff_of_true ?_ (fun _ => ⟨hfull, fun _ _ h => by cases h⟩)
            refine signsRight_refused hmac (iotSignMqtt_host hmac hregion hlt) (by decide) ?_
            exact fun _ _ _ h => by cases h
          | some domain =>
            rw [signsRight_custom hmac domain hlt]
            simp [hfull]
        · refine iff_of_true (signsRight_region hmac (by omega) hlt) (fun _ => ⟨hfull, ?_⟩)
          exact fun h => absurd h hcustom
    · refine iff_of_true (signsRight_refused hmac (show iotSignMqtt hmac custom region (some info)
        signout = some (State.userInputInvalid, signout) from ?_) (by decide) ?_)
          (fun h => absurd h hregion)
      · simp only [iotSignMqtt, ge_iff_le, if_pos (Nat.not_lt.mp hregion)]
      · intro _ _ _ h
        rw [gInfraMqttDomain_none (Nat.not_lt.mp hregion)] at h
        cases h

end Sign

/-- A product key of 20 bytes and a device name of 32. -/
def longestInfo : IotxDevMetaInfo where
  productKey := ⟨List.replicate 20 0x61, by decide⟩
  deviceName := ⟨List.replicate 32 0x62, by decide⟩
  deviceSecret := CStr.empty
  productKey_le := by decide
  deviceName_le := by decide
  deviceSecret_le := by decide

theorem longest_read_outside :
    iotSignMqtt (fun _ _ => Vector.replicate 32 0) none 0 (some longestInfo) .cleared = none :=
  iotSignMqtt_full _ (by decide) rfl

/-- A custom domain of 63 bytes fits the host name with its terminator and is refused. -/
example : signHostname (some ⟨List.replicate 63 0x61, by decide⟩) 5 CStr.empty (zeros 64)
    = some (State.mqttSignHostnameBufShort, zeros 64) := by
  rw [signHostname_custom]
  decide

end AliyunIot.DevSign
