import AliyunIot.DevSign.Reference
import AliyunIot.Infra.Hmac

/-!
# The password of the sign-in

`IOT_Sign_MQTT` with the `utils_hmac_sha256` of `infra_sha256.c`: a device secret of any
length that `iotx_dev_meta_info_t` has room for is a key it takes, so that the password is
the keyed hash of the sign source in digits.
-/

namespace AliyunIot.DevSign

open CharBuf Infra Lib

/-- What `utils_hmac_sha256` writes to the 32 zeros of `sign_hex`; `context` is what is on the
stack. -/
def signHex (context : Sha256Context) (msg key : List UInt8) : Vector UInt8 32 :=
  Vector.ofFn fun i =>
    ((utilsHmacSha256 context (some msg) (some key) (some (List.replicate 32 0))).getD []).getD i 0

theorem length_hmac_sha256 (key msg : List UInt8) :
    (BlockHash.hmac Fips180.sha256 key msg).length = 32 := Fips180.length_sha256 _

theorem toList_signHex (context : Sha256Context) {msg key : List UInt8}
    (hmsg : msg.length < 4294967296) (hkey : key.length ≤ 64) :
    (signHex context msg key).toList = BlockHash.hmac Fips180.sha256 key msg := by
  have hlen := length_hmac_sha256 key msg
  have hdrop : (List.replicate 32 (0 : UInt8)).drop (BlockHash.hmac Fips180.sha256 key msg).length =
      [] := by
    rw [hlen]
    rfl
  apply List.ext_getElem
  · rw [Vector.length_toList, hlen]
  · intro i _ hi
    simp only [signHex, Vector.getElem_toList, Vector.getElem_ofFn]
    rw [utilsHmacSha256_eq context hmsg, writtenFor, if_pos hkey, Option.getD_some, hdrop,
      List.append_nil]
    exact List.getD_eq_getElem _ _ hi

/-- The digits of the keyed hash of the sign source under the device secret. -/
def standardPassword (info : IotxDevMetaInfo) : List UInt8 :=
  hex2str (BlockHash.hmac Fips180.sha256 info.deviceSecret.val (refSource info).val)

theorem refPassword_signHex (context : Sha256Context) (info : IotxDevMetaInfo) :
    refPassword (signHex context) info = standardPassword info := by
  have hsource : (refSource info).val.length ≤ 187 := strlen_refSource_le info
  rw [refPassword, toList_signHex context (by omega) info.deviceSecret_le, standardPassword]

/-- Where the data are right, the password is that of the standard. -/
theorem password_standard (context : Sha256Context) (custom : Option CStr) (region : Nat)
    (info : IotxDevMetaInfo) (signout : IotxSignMqtt)
    (hlen : info.productKey.strlen + info.deviceName.strlen < 52)
    (hregion : region < iotxCloudRegionCustom ∨
      region = iotxCloudRegionCustom ∧ ∃ domain, custom = some domain ∧ domain.strlen < 63) :
    ∃ out domain, iotSignMqtt (signHex context) custom region (some info) signout =
        some (State.success, out) ∧
      gInfraMqttDomain custom region = some domain ∧
      Reads out.clientid (refClientid info) ∧ Reads out.username (refUsername info).val ∧
      Reads out.password (standardPassword info) ∧
      Reads out.hostname (refHostname info region domain).val := by
  have hreads {domain : CStr} {out : IotxSignMqtt}
      (h : Reference (signHex context) region info domain out) :
      Reads out.clientid (refClientid info) ∧ Reads out.username (refUsername info).val ∧
        Reads out.password (standardPassword info) ∧
        Reads out.hostname (refHostname info region domain).val := by
    have hpassword := h.password
    rw [refPassword_signHex] at hpassword
    exact ⟨h.clientid, h.username, hpassword, h.hostname⟩
  have hid : (refDeviceId info).strlen < 53 := by
    rw [strlen_refDeviceId]
    omega
  rcases hregion with hregion | ⟨rfl, domain, rfl, hdomain⟩
  · obtain ⟨domain, hdomain, hle⟩ := domain_lengths hregion custom
    refine ⟨_, domain, ?_, hdomain, hreads (reference_signed (signHex context) hid ?_)⟩
    · rw [iotSignMqtt_host (signHex context) (Nat.lt_succ_of_lt hregion) hlen,
        signHostname_region info hregion hdomain hle]
      rfl
    · have hpk : info.productKey.strlen ≤ 20 := info.productKey_le
      have hdot : textDot.strlen = 1 := rfl
      rw [refHostname, if_neg (Nat.ne_of_lt hregion), CStr.strlen_append, CStr.strlen_append]
      omega
  · have hhost : refHostname info iotxCloudRegionCustom domain = domain := rfl
    refine ⟨_, domain, ?_, rfl, hreads (reference_signed (signHex context) hid ?_)⟩
    · rw [iotSignMqtt_host (signHex context) (by decide) hlen, signHostname_custom,
        if_neg (by omega), if_pos (by omega)]
      rfl
    · rw [hhost]
      omega

/-- A device of the product `y` with the name `z`, whose secret is sixty-four bytes. -/
def shortInfo : IotxDevMetaInfo where
  productKey := ⟨[0x79], by decide⟩
  deviceName := ⟨[0x7A], by decide⟩
  deviceSecret := ⟨List.replicate 64 0x63, by decide⟩
  productKey_le := by decide
  deviceName_le := by decide
  deviceSecret_le := by decide

theorem password_standard_short :
    ∃ out domain, iotSignMqtt (signHex sha256Zero) none 0 (some shortInfo) .cleared =
        some (State.success, out) ∧
      gInfraMqttDomain none 0 = some domain ∧ Reads out.clientid (refClientid shortInfo) ∧
      Reads out.username (refUsername shortInfo).val ∧
      Reads out.password (standardPassword shortInfo) ∧
      Reads out.hostname (refHostname shortInfo 0 domain).val :=
  password_standard sha256Zero none 0 shortInfo .cleared (by decide) (Or.inl (by decide))

end AliyunIot.DevSign
