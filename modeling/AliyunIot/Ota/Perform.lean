import AliyunIot.Ota.Download

/-!
# Storing what is fetched

The storage layer of `HAL_OS_mbed.cpp` over the bootloader's `MBEDBL_UCP` calls, and the
loops of `dm_fota_perform_sync` and `dm_cota_perform_sync` turn by turn. The module is
initialised, so `dm_ota_get_ota_handle` gives its handle.
-/

namespace AliyunIot.Ota

/-! ## The storage layer -/

/-- The flags of `mbedbl_status`, and what `MBEDBL_UCP_Write` stored since the last
`MBEDBL_UCP_PrepareWrite`. -/
structure Storage where
  prepared : Bool
  failed : Bool
  stored : List UInt8

/-- Which `MBEDBL_UCP` calls succeed. -/
structure StorageEnv where
  prepare : Bool
  write : Bool
  finalize : Bool

def halFirmwarePersistenceStart (st : Storage) : Storage :=
  { st with prepared := false, failed := false }

/-- `IOTX_FIRMWARE_VER_LEN` and a terminator. -/
def versionBuf : IoctlBuf := ⟨false, 33, false, true⟩

section
variable (lib : OtaLib) (env : StorageEnv)

/-- The storage once `HAL_Firmware_Persistence_Write` has prepared it, or nothing where it
returns an error. -/
def ucpPrepared (h : OtaHandle) (st : Storage) : Except OtaFault (Option Storage) :=
  if st.prepared then .ok (some st)
  else
    match otaIoctl lib h .fileSize numberBuf true with
    | .error fault => .error fault
    | .ok size =>
      if size.ret ≠ 0 then .ok none
      else
        match otaIoctl lib h .version versionBuf true with
        | .error fault => .error fault
        | .ok version =>
          if version.ret ≠ 0 then .ok none
          else if env.prepare then .ok (some { st with prepared := true, stored := [] })
          else .ok none

def halFirmwarePersistenceWrite (h : OtaHandle) (st : Storage) (buffer : List UInt8) :
    Except OtaFault (Int × Storage) :=
  match ucpPrepared lib env h st with
  | .error fault => .error fault
  | .ok none => .ok (-1, st)
  | .ok (some st) =>
    if env.write then .ok (0, { st with stored := st.stored ++ buffer })
    else .ok (-1, { st with failed := true })

/-- `HAL_Firmware_Persistence_Stop`: whether `MBEDBL_UCP_FinalizeWrite` succeeded, if it
was called, and the result. -/
def halFirmwarePersistenceStop (st : Storage) : Option Bool × Int :=
  if st.prepared = false then (none, -1)
  else if st.failed then (none, -1)
  else (some env.finalize, if env.finalize then 0 else -1)

end

/-! ## The loops -/

/-- What a turn of a loop meets: the fetch, the storage, and the option
`DM_OPT_FOTA_RETRY_TIMEOUT_MS`. -/
structure TurnEnv where
  fetch : FetchEnv
  storage : StorageEnv
  retryMaxTimeout : Int

/-- A call that does not return: a null pointer, or `file_size` is 0. -/
inductive SyncFault where
  | ota (fault : OtaFault)
  | divideByZero

/-- What a turn leaves: what `MBEDBL_UCP_FinalizeWrite` returned if it was called, whether
a check of the firmware has just reported it valid, and what the call returns if it does. -/
structure Turned where
  h : OtaHandle
  storage : Storage
  retryTimeout : Int
  valid : Bool
  finalized : Option Bool
  returned : Option Int

def Turned.stop (env : StorageEnv) (h : OtaHandle) (st : Storage) (valid : Bool) (ret : Int) :
    Turned :=
  ⟨h, st, 0, valid, (halFirmwarePersistenceStop env st).1, some ret⟩

def Turned.go (h : OtaHandle) (st : Storage) (retryTimeout : Int) : Turned :=
  ⟨h, st, retryTimeout, false, none, none⟩

abbrev configFotaRetryInternalMs : Int := 100

/-- `IOTX_OTA` calls that give a number. -/
def Ioctled.number (r : Ioctled) : UInt32 :=
  match r.out with
  | some (.number n) => n
  | _ => 0

section
variable (lib : OtaLib)

/-- The start of both calls: the kind of what is announced, then the size of what is
fetched. Nothing is stored when the call returns at once. -/
def performStart (kind : OtaType) (output : Bool) (outputLen : Int) (h : OtaHandle) (st : Storage) :
    Except OtaFault (Option (OtaHandle × Storage)) :=
  if output = false ∨ outputLen ≤ 0 then .ok none
  else
    match otaIoctl lib h .otaType numberBuf true with
    | .error fault => .error fault
    | .ok r =>
      if r.number ≠ kind.toNumber then .ok none
      else
        match otaIoctl lib h .resetFetchedSize numberBuf true with
        | .error fault => .error fault
        | .ok r => .ok (some (r.h, halFirmwarePersistenceStart st))

/-- A null buffer for `IOT_OTAG_RESET_STATE`. -/
def nullBuf : IoctlBuf := ⟨true, 0, true, true⟩

/-- The handle after `IOT_OTAG_RESET_STATE` with a null buffer. -/
def resetState (h : OtaHandle) : OtaHandle :=
  match otaIoctl lib h .resetState nullBuf true with
  | .ok r => r.h
  | .error _ => h

/-- A turn of `dm_fota_perform_sync` after its bytes are stored. -/
def fotaCheck (env : TurnEnv) (h : OtaHandle) (st : Storage) : Except SyncFault Turned :=
  if h.sizeFile = 0 then .error .divideByZero
  else if otaIsFetchFinish h then
    match otaIoctl lib h .checkFirmware numberBuf true with
    | .error fault => .error (.ota fault)
    | .ok r =>
      if r.number = 0 then
        .ok (.stop env.storage (resetState lib r.h) st false State.devModelOtaImageCheckFailed)
      else .ok (.stop env.storage r.h st true State.success)
  else .ok (.go h st 0)

/-- A turn of `dm_fota_perform_sync`. -/
def fotaTurn (env : TurnEnv) (bufLen : Nat) (retryTimeout : Int) (h : OtaHandle) (st : Storage) :
    Except SyncFault Turned :=
  match otaFetchYield lib env.fetch h true bufLen with
  | .error fault => .error (.ota fault)
  | .ok r =>
    if r.ret < 0 then
      if retryTimeout ≥ env.retryMaxTimeout then
        .ok (.stop env.storage (resetState lib r.h) st false State.devModelOtaFetchFailed)
      else .ok (.go r.h st ((retryTimeout + configFotaRetryInternalMs).bmod (2 ^ 32)))
    else
      match halFirmwarePersistenceWrite lib env.storage r.h st r.bytes with
      | .error fault => .error (.ota fault)
      | .ok (ret, st) =>
        if ret < 0 then
          .ok (.stop env.storage (resetState lib r.h) st false State.sysDependFirmwaireWirte)
        else fotaCheck lib env r.h st

/-- A turn of `dm_cota_perform_sync` after its bytes are stored. -/
def cotaCheck (env : TurnEnv) (h : OtaHandle) (st : Storage) : Except SyncFault Turned :=
  if h.sizeFile = 0 then .error .divideByZero
  else if otaIsFetchFinish h then
    match otaIoctl lib h .checkConfig numberBuf true with
    | .error fault => .error (.ota fault)
    | .ok r =>
      if r.number = 0 then
        .ok (.stop env.storage r.h st false State.devModelOtaImageCheckFailed)
      else .ok (.stop env.storage r.h st false State.success)
  else .ok (.go h st 0)

/-- A turn of `dm_cota_perform_sync`, which does not look at the result of the write. -/
def cotaTurn (env : TurnEnv) (bufLen : Nat) (h : OtaHandle) (st : Storage) :
    Except SyncFault Turned :=
  match otaFetchYield lib env.fetch h true bufLen with
  | .error fault => .error (.ota fault)
  | .ok r =>
    if r.ret < 0 then .ok (.stop env.storage r.h st false State.devModelOtaFetchFailed)
    else
      match halFirmwarePersistenceWrite lib env.storage r.h st r.bytes with
      | .error fault => .error (.ota fault)
      | .ok (_, st) => cotaCheck lib env r.h st

end

end AliyunIot.Ota
