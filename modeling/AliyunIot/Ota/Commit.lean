import AliyunIot.Lib.Run
import AliyunIot.Ota.Announced
import AliyunIot.Ota.Perform

/-!
# What is committed

Announcements and the calls of `dm_fota_perform_sync` and `dm_cota_perform_sync` in any
order, a turn of a loop at a time. `HAL_Firmware_Persistence_Stop` commits whatever was
stored without a failed write. `committed_run`: where no call stops with a part of a
file, a configuration or a file that fails its check in the storage, only verified
firmware is committed.
-/

namespace AliyunIot.Ota

open Lib

/-- Which call is under way. -/
inductive SyncPhase where
  | idle
  | fota (bufLen : Nat) (retryTimeout : Int)
  | cota (bufLen : Nat)
  | crashed
  deriving DecidableEq

def SyncPhase.after (r : Turned) : SyncPhase → SyncPhase
  | .fota bufLen _ =>
    if r.returned = none then .fota bufLen r.retryTimeout else .idle
  | .cota bufLen => if r.returned = none then .cota bufLen else .idle
  | phase => phase

/-- The handle, what the accepted message announced, the storage and the call. -/
structure OtaSync where
  h : OtaHandle
  accepted : Option Announced
  storage : Storage
  phase : SyncPhase

/-- A message between calls, a call, or a turn of the call that is under way. -/
inductive SyncOp where
  | message (env : CallbackEnv) (msg : List UInt8) (type : OtaTopic)
  | fota (output : Bool) (outputLen : Int)
  | cota (output : Bool) (outputLen : Int)
  | turn (env : TurnEnv)

section
variable (lib : OtaLib)

namespace OtaSync

def init : OtaSync := ⟨otaInit, none, ⟨false, false, []⟩, .idle⟩

/-- A call starts, or returns at once. -/
def start (s : OtaSync) (kind : OtaType) (output : Bool) (outputLen : Int)
    (phase : Nat → SyncPhase) : OtaSync :=
  match performStart lib kind output outputLen s.h s.storage with
  | .error _ => { s with phase := .crashed }
  | .ok none => s
  | .ok (some (h, st)) => { s with h := h, storage := st, phase := phase outputLen.toNat }

def turned (s : OtaSync) (env : TurnEnv) : Option (Except SyncFault Turned) :=
  match s.phase with
  | .fota bufLen retryTimeout => some (fotaTurn lib env bufLen retryTimeout s.h s.storage)
  | .cota bufLen => some (cotaTurn lib env bufLen s.h s.storage)
  | .idle | .crashed => none

def next (s : OtaSync) : SyncOp → OtaSync
  | .message env msg type =>
    match s.phase with
    | .idle =>
      { s with
        h := (otaCallback lib env s.h msg type).2
        accepted :=
          if (otaCallback lib env s.h msg type).1 = 0 then
            (payloadOf lib msg type).map fun doc => announcedBy lib env doc type.kind
          else s.accepted }
    | _ => s
  | .fota output outputLen =>
    match s.phase with
    | .idle => s.start lib .fota output outputLen fun bufLen => .fota bufLen 0
    | _ => s
  | .cota output outputLen =>
    match s.phase with
    | .idle => s.start lib .cota output outputLen fun bufLen => .cota bufLen
    | _ => s
  | .turn env =>
    match s.turned lib env with
    | none => s
    | some (.error _) => { s with phase := .crashed }
    | some (.ok r) => { s with h := r.h, storage := r.storage, phase := s.phase.after r }

/-- What is committed is the whole file that a firmware message announced, just reported
valid; and `dm_fota_perform_sync` succeeds when the commit did. -/
def Committed (s : OtaSync) : SyncOp → Prop
  | .turn env => ∀ r, s.turned lib env = some (.ok r) →
      (r.finalized ≠ none → r.valid = true ∧ ∃ a ∈ s.accepted, a.kind = .fota ∧
        r.storage.stored = a.part lib a.size ∧ r.storage.stored.length = a.size.toNat) ∧
      (∀ bufLen retryTimeout, s.phase = .fota bufLen retryTimeout →
        r.returned = some State.success → r.finalized = some true)
  | _ => True

end OtaSync

/-! ## Runs that leave nothing else in the storage -/

/-- The fetch brings bytes, with contexts for the first ones. -/
def OtaHandle.Brings (h : OtaHandle) (env : FetchEnv) (bufLen : Nat) : Prop :=
  bufLen ≠ 0 ∧ h.Active ∧ h.Delivers env ∧
    (h.sizeFetched = 0 → env.md5First = true ∧ env.sha256First = true)

/-- The fetch brings what is left of the file. -/
def OtaHandle.Completes (h : OtaHandle) (env : FetchEnv) (bufLen : Nat) : Prop :=
  ∃ ch after bytes, Opened env.ofcInit h ch ∧
    ofcFetch lib ch bufLen env.http = .ok (bytes, after) ∧
    h.sizeFetched + UInt32.ofNat bytes.length ≥ h.sizeFile

def Storage.Takes (st : Storage) (env : StorageEnv) : Prop :=
  (st.prepared = true ∨ env.prepare = true) ∧ env.write = true

/-- There is nothing that `HAL_Firmware_Persistence_Stop` would commit. -/
def Storage.Void (st : Storage) : Prop := st.prepared = false ∨ st.failed = true

namespace OtaSync

section
variable (s : OtaSync)

/-- The bytes that are fetched go on in the file from where the last ones were, and are
not more than was announced. -/
def GoesOn (env : FetchEnv) (bufLen : Nat) : Prop :=
  (∀ a ∈ s.accepted, s.h.Fitting lib a env bufLen) ∧
  (s.h.chFetch = none → s.h.sizeFetched.toNat < 2 ^ 31) ∧
  (s.h.sizeFetched = 0 → ∀ ch ∈ s.h.chFetch, ∀ a ∈ s.accepted, ch = ⟨a.url, 0⟩)

/-- A firmware that is complete has the announced digest and is committed without an
error, and the call does not give up with a part of it in the storage. -/
def FotaCareful (env : TurnEnv) (bufLen : Nat) (retryTimeout : Int) : Prop :=
  (s.h.Brings env.fetch bufLen → s.GoesOn lib env.fetch bufLen) ∧
  (¬ s.h.Brings env.fetch bufLen → retryTimeout ≥ env.retryMaxTimeout → s.storage.Void) ∧
  (s.h.Brings env.fetch bufLen → s.h.Completes lib env.fetch bufLen →
    s.storage.Takes env.storage →
    env.storage.finalize = true ∧
      ∀ a ∈ s.accepted, a.md5.val = hexStr (lib.md5 (a.part lib a.size)))

/-- The call does not stop with a part of the configuration in the storage. -/
def CotaCareful (env : TurnEnv) (bufLen : Nat) : Prop :=
  (¬ s.h.Brings env.fetch bufLen → s.storage.Void) ∧
  (s.h.Brings env.fetch bufLen → s.h.Completes lib env.fetch bufLen →
    s.storage.Takes env.storage → s.storage.failed = true)

/-- A message that is not accepted stores nothing that the firmware to be fetched needs. -/
def MessageCareful (env : CallbackEnv) (doc : List UInt8) (kind : OtaType) : Prop :=
  if kind = .fota then
    if readsFirmware lib env doc && opens lib env doc s.h.sizeFetched then
      s.h.Terminated (valueOf lib doc "md5")
    else s.h.type = .fota → readsUrl lib env doc = false
  else
    (readsConfig lib env doc && opens lib env doc 0) = false → s.h.type = .fota →
      readsConfig lib env doc = false

def Careful : SyncOp → Prop
  | .message env msg type => s.phase = .idle → s.h.state ≠ .fetching →
      ∀ doc, payloadOf lib msg type = some doc → s.MessageCareful lib env doc type.kind
  | .fota .. | .cota .. => True
  | .turn env =>
    match s.phase with
    | .fota bufLen retryTimeout => s.FotaCareful lib env bufLen retryTimeout
    | .cota bufLen => s.CotaCareful lib env bufLen
    | .idle | .crashed => True

end

end OtaSync

end

/-! ## What a turn does -/

section
variable {lib : OtaLib} {h after : OtaHandle} {st : Storage} {a : Announced}

/-- A fetch that brings nothing leaves what is fetched as it was. -/
structure Stalled (h after : OtaHandle) : Prop where
  frame : after = { h with
    state := after.state, md5 := after.md5, sha256 := after.sha256, chFetch := after.chFetch }
  md5 : h.sizeFetched ≠ 0 → ∀ d ∈ h.md5, d ∈ after.md5
  sha256 : h.sizeFetched ≠ 0 → ∀ d ∈ h.sha256, d ∈ after.sha256
  channel : h.sizeFetched ≠ 0 → ∀ ch ∈ after.chFetch, ch ∈ h.chFetch

inductive Outcome (lib : OtaLib) (env : FetchEnv) (bufLen : Nat) (h : OtaHandle) : Fetched → Prop
  | stalled {r : Fetched} (hret : r.ret < 0) (hno : ¬ h.Brings env bufLen)
    (hs : Stalled h r.h) : Outcome lib env bufLen h r
  | brought {d e : Digest} {ch next : FetchChannel} {bytes : List UInt8}
    (hb : h.Brings env bufLen) (hm : Made env.md5Init h.md5 d) (hn : Made env.sha256Init h.sha256 e)
    (hopen : Opened env.ofcInit h ch) (hf : ofcFetch lib ch bufLen env.http = .ok (bytes, next)) :
    Outcome lib env bufLen h (fetchedBytes env
      { h with state := .fetching, md5 := some d, sha256 := some e, chFetch := some next } bytes)

variable {malloc : Bool}

theorem made_mem {old : Option Digest} {d e : Digest} (hm : Made malloc old d)
    (he : e ∈ old) : e ∈ some d := by
  rcases hm with hold | ⟨hnone, _⟩
  · exact hold ▸ he
  · cases hnone.symm.trans he

variable {bufLen : Nat}

theorem fetch_outcome {env : FetchEnv} {r : Fetched}
    (hr : otaFetchYield lib env h true bufLen = .ok r) : Outcome lib env bufLen h r := by
  have hparam : otaeInvalidParam < 0 := by decide
  have hfail : State.failReturn < 0 := by decide
  by_cases hlen : bufLen = 0
  · have hrefused : otaFetchYield lib env h true bufLen = .ok ⟨otaeInvalidParam, [], h⟩ :=
      if_pos (.inr hlen)
    cases hr.symm.trans hrefused
    exact .stalled hparam (fun hb => hb.1 hlen)
      ⟨rfl, fun _ _ h => h, fun _ _ h => h, fun _ _ h => h⟩
  have hy := fetchYield_yielded lib env h true bufLen
  rw [hr] at hy
  generalize hres : (Except.ok r : Except OtaFault Fetched) = res at hy
  cases hy with
  | refused hret hno =>
    cases hres
    exact .stalled hret (fun hb => hno rfl hlen hb.2.1)
      ⟨rfl, fun _ _ h => h, fun _ _ h => h, fun _ _ h => h⟩
  | noMd5 hs hm hinit =>
    cases hres
    exact .stalled hfail (fun hb => absurd (hinit.symm.trans (hb.2.2.1.1 hm)) nofun)
      ⟨rfl, fun _ _ h => h, fun _ _ h => h, fun _ _ h => h⟩
  | noSha256 hs hm hn hinit =>
    cases hres
    exact .stalled hfail (fun hb => absurd (hinit.symm.trans (hb.2.2.1.2.1 hn)) nofun)
      ⟨rfl, fun _ _ => made_mem hm, fun _ _ h => h, fun _ _ h => h⟩
  | nullUrl => cases hres
  | noChannel hs hm hn hch hno =>
    cases hres
    refine .stalled hfail (fun hb => ?_)
      ⟨rfl, fun _ _ => made_mem hm, fun _ _ => made_mem hn, fun _ _ h => h⟩
    obtain ⟨url, hu, hinit⟩ := hb.2.2.1.2.2.1 hch
    exact hinit (hno url hu)
  | @failed _ _ code hs hm hn hhttp =>
    cases hres
    exact .stalled code.property (fun hb => hb.2.2.1.2.2.2 _ hhttp)
      ⟨rfl, fun _ _ => made_mem hm, fun _ _ => made_mem hn, fun _ _ h => by cases h⟩
  | fetched hs hm hn hopen hf =>
    cases hres
    by_cases hfirst : h.sizeFetched = 0 → env.md5First = true ∧ env.sha256First = true
    · exact .brought ⟨hlen, hs, delivers_of_fetched hm hn hopen hf, hfirst⟩ hm hn hopen hf
    · obtain ⟨hz, hno⟩ := Classical.not_imp.mp hfirst
      have hsame {after : OtaHandle} (hframe : after = { h with
          state := after.state, md5 := after.md5, sha256 := after.sha256
          chFetch := after.chFetch }) : Stalled h after :=
        ⟨hframe, fun hpos => absurd hz hpos, fun hpos => absurd hz hpos,
          fun hpos => absurd hz hpos⟩
      have hneg : (-1 : Int) < 0 := by decide
      unfold fetchedBytes
      rw [if_pos hz]
      split
      · exact .stalled hneg (fun hb => hfirst hb.2.2.2) (hsame rfl)
      next hmd5 =>
      rw [if_pos]
      · exact .stalled hneg (fun hb => hfirst hb.2.2.2) (hsame rfl)
      · rw [Bool.eq_false_iff]
        exact fun hsha256 => hno ⟨eq_true_of_ne_false hmd5, hsha256⟩

/-! ### The storage -/

/-- What `HAL_Firmware_Persistence_Write` does. -/
inductive Written (env : StorageEnv) (st : Storage) (bytes : List UInt8) :
    Except OtaFault (Int × Storage) → Prop
  | fault {fault : OtaFault} : Written env st bytes (.error fault)
  | failed {after : Storage} (hv : after.Void) : Written env st bytes (.ok (-1, after))
  | stored (ht : st.Takes env) :
    Written env st bytes
      (.ok (0, { st with
        prepared := true, stored := (if st.prepared then st.stored else []) ++ bytes }))

theorem ucpPrepared_cases (lib : OtaLib) (env : StorageEnv) (h : OtaHandle) (st : Storage) :
    (∃ fault, ucpPrepared lib env h st = .error fault) ∨
    (st.prepared = false ∧ ucpPrepared lib env h st = .ok none) ∨
    ((st.prepared = true ∨ env.prepare = true) ∧ ucpPrepared lib env h st =
      .ok (some { st with
        prepared := true, stored := if st.prepared then st.stored else [] })) := by
  unfold ucpPrepared
  by_cases hp : st.prepared = true
  · refine .inr (.inr ⟨.inl hp, ?_⟩)
    rw [if_pos hp, if_pos hp, ← hp]
  have hno : st.prepared = false := Bool.eq_false_iff.mpr hp
  rw [if_neg hp, if_neg hp]
  cases otaIoctl lib h .fileSize numberBuf true with
  | error fault => exact .inl ⟨fault, rfl⟩
  | ok size =>
    dsimp only
    split
    · exact .inr (.inl ⟨hno, rfl⟩)
    cases otaIoctl lib h .version versionBuf true with
    | error fault => exact .inl ⟨fault, rfl⟩
    | ok version =>
      dsimp only
      split
      · exact .inr (.inl ⟨hno, rfl⟩)
      split
      · next hprepare => exact .inr (.inr ⟨.inr hprepare, rfl⟩)
      · exact .inr (.inl ⟨hno, rfl⟩)

theorem write_written (lib : OtaLib) (env : StorageEnv) (h : OtaHandle) (st : Storage)
    (bytes : List UInt8) :
    Written env st bytes (halFirmwarePersistenceWrite lib env h st bytes) := by
  unfold halFirmwarePersistenceWrite
  rcases ucpPrepared_cases lib env h st with
    ⟨fault, heq⟩ | ⟨hno, heq⟩ | ⟨hprep, heq⟩ <;> rw [heq]
  · exact .fault
  · exact .failed (.inl hno)
  · dsimp only
    split
    · next hwrite => exact .stored ⟨hprep, hwrite⟩
    · exact .failed (.inr rfl)

theorem stop_void {env : StorageEnv} (hv : st.Void) :
    (halFirmwarePersistenceStop env st).1 = none := by
  unfold halFirmwarePersistenceStop
  split
  · rfl
  · next hp =>
    split
    · rfl
    · next hf => exact absurd (hv.resolve_left hp) hf

theorem stop_stored (env : StorageEnv) (st : Storage) (hp : st.prepared = true)
    (hf : st.failed = false) : (halFirmwarePersistenceStop env st).1 = some env.finalize := by
  unfold halFirmwarePersistenceStop
  rw [if_neg (by rw [hp]; nofun), if_neg (by rw [hf]; nofun)]

/-! ### The start of a call -/

theorem toNumber_inj {a b : OtaType} (h : a.toNumber = b.toNumber) : a = b := by
  revert h
  cases a <;> cases b <;> decide

theorem performStart_some {kind : OtaType} {output : Bool} {outputLen : Int} {h' : OtaHandle}
    {st' : Storage} (hkind : kind ≠ .none)
    (hs : performStart lib kind output outputLen h st = .ok (some (h', st'))) :
    ¬ (h.state = .uninited ∨ h.state = .inited) ∧ h.type = kind ∧
      h' = { h with sizeFetched := 0 } ∧ st' = halFirmwarePersistenceStart st := by
  unfold performStart at hs
  split at hs
  · cases hs
  by_cases hidle : h.state = .uninited ∨ h.state = .inited
  · have htype : otaIoctl lib h .otaType numberBuf true = .ok (.of h otaeInvalidState none) := by
      unfold otaIoctl
      rw [if_neg (by decide), if_pos hidle]
    have hnumber : (Ioctled.of h otaeInvalidState none).number = OtaType.none.toNumber := rfl
    rw [htype] at hs
    dsimp only at hs
    rw [if_pos fun heq => hkind (toNumber_inj (hnumber.symm.trans heq)).symm] at hs
    cases hs
  · have htype : otaIoctl lib h .otaType numberBuf true =
        .ok (.of h 0 (some (.number h.type.toNumber))) := by
      unfold otaIoctl
      rw [if_neg (by decide), if_neg hidle]
      rfl
    have hreset : otaIoctl lib h .resetFetchedSize numberBuf true =
        .ok (.of { h with sizeFetched := 0 } 0 none) := by
      unfold otaIoctl
      rw [if_neg (by decide), if_neg hidle]
    rw [htype, hreset] at hs
    dsimp only at hs
    split at hs
    · cases hs
    · next heq =>
      cases hs
      exact ⟨hidle, toNumber_inj (not_not.mp heq), rfl, rfl⟩

theorem resetState_eq (h : OtaHandle) : resetState lib h = h := rfl

/-! ## What every step keeps -/

structure Aimed (h : OtaHandle) (a : Announced) : Prop where
  kind : a.kind = .fota
  size : h.sizeFile = a.size
  md5sum : cstrOf h.md5sum = a.md5
  url : ∀ url ∈ h.purl, url = a.url

/-- The storage has what is fetched of the firmware, and the contexts and the channel are
where the storage is. -/
structure Storing (lib : OtaLib) (h : OtaHandle) (st : Storage) (a : Announced) : Prop extends
    Aimed h a where
  type : h.type = .fota
  file : h.sizeFetched.toNat ≤ (lib.file a.url).length
  contexts : h.sizeFetched ≠ 0 → Absorbed h.md5 (a.part lib h.sizeFetched) ∧
    Absorbed h.sha256 (a.part lib h.sizeFetched)
  channel : h.sizeFetched ≠ 0 → ∀ ch ∈ h.chFetch, ch = ⟨a.url, h.sizeFetched.toNat⟩
  fine : st.failed = false
  stored : st.prepared = true → st.stored = a.part lib h.sizeFetched
  unprepared : st.prepared = false → h.sizeFetched = 0

theorem Storing.stalled (hs : Storing lib h st a) (hst : Stalled h after) :
    Storing lib after st a := by
  have hsize : after.sizeFetched = h.sizeFetched := (congrArg OtaHandle.sizeFetched hst.frame :)
  have hpos (hz : after.sizeFetched ≠ 0) : h.sizeFetched ≠ 0 := hsize ▸ hz
  have hctx {old new : Option Digest} (hz : h.sizeFetched ≠ 0) (hkeep : ∀ d ∈ old, d ∈ new)
      (habs : Absorbed old (a.part lib h.sizeFetched)) :
      Absorbed new (a.part lib h.sizeFetched) := by
    rcases habs with hsome | ⟨_, hnil⟩
    · exact .inl (hkeep _ hsome)
    · have hlen := congrArg List.length hnil
      unfold Announced.part at hlen
      rw [List.length_take_of_le hs.file] at hlen
      exact absurd (UInt32.toNat_inj.mp hlen) hz
  have hfile : after.sizeFile = h.sizeFile := (congrArg OtaHandle.sizeFile hst.frame :)
  have hsum : after.md5sum = h.md5sum := (congrArg OtaHandle.md5sum hst.frame :)
  have hpurl : after.purl = h.purl := (congrArg OtaHandle.purl hst.frame :)
  have htype : after.type = h.type := (congrArg OtaHandle.type hst.frame :)
  refine ⟨⟨hs.kind, hfile.trans hs.size, hsum ▸ hs.md5sum, hpurl ▸ hs.url⟩, htype.trans hs.type,
    hsize ▸ hs.file, fun hz => ?_, fun hz => ?_, hs.fine, hsize ▸ hs.stored,
    hsize ▸ hs.unprepared⟩
  · obtain ⟨hm, hn⟩ := hs.contexts (hpos hz)
    rw [hsize]
    exact ⟨hctx (hpos hz) (hst.md5 (hpos hz)) hm, hctx (hpos hz) (hst.sha256 (hpos hz)) hn⟩
  · rw [hsize]
    exact fun ch hch => hs.channel (hpos hz) ch (hst.channel (hpos hz) ch hch)

theorem Storing.opened {s : OtaSync} (hs : Storing lib s.h st a) (ha : s.accepted = some a)
    {env : FetchEnv} (hgoes : s.GoesOn lib env bufLen)
    {ch : FetchChannel} (hopen : Opened malloc s.h ch) : ch = ⟨a.url, s.h.sizeFetched.toNat⟩ := by
  rcases hopen with hold | ⟨hnone, url, hu, hinit⟩
  · by_cases hz : s.h.sizeFetched = 0
    · rw [hz]
      exact hgoes.2.2 hz ch hold a ha
    · exact hs.channel hz ch hold
  · unfold OtaHandle.url at hu
    rw [hs.type] at hu
    rw [hs.url url hu] at hinit
    exact ofcInit_some hinit (hgoes.2.1 hnone)

variable {bytes : List UInt8}

theorem Storing.fetches {s : OtaSync} (hs : Storing lib s.h st a) (ha : s.accepted = some a)
    {env : FetchEnv} (hgoes : s.GoesOn lib env bufLen)
    (hb : s.h.Brings env bufLen) {d e : Digest} {ch next : FetchChannel}
    (hm : Made env.md5Init s.h.md5 d) (hn : Made env.sha256Init s.h.sha256 e)
    (hopen : Opened env.ofcInit s.h ch) (hf : ofcFetch lib ch bufLen env.http = .ok (bytes, next)) :
    ∃ after, fetchedBytes env
        { s.h with state := .fetching, md5 := some d, sha256 := some e, chFetch := some next }
        bytes = ⟨bytes.length, bytes, after⟩ ∧ Fetches lib a s.h after bytes := by
  rw [hs.opened ha hgoes hopen] at hf
  exact yielded_fetches hs.file (hgoes.1 a ha) hs.contexts hb.2.2.2 hm hn hf

theorem Storing.stored_append (hs : Storing lib h st a) (hf : Fetches lib a h after bytes) :
    (if st.prepared then st.stored else []) ++ bytes = a.part lib after.sizeFetched := by
  split
  · next hp => rw [hs.stored hp, hf.part]
  · next hp =>
    rw [← hf.part, hs.unprepared (Bool.eq_false_iff.mpr hp), part_zero]

theorem Storing.written (hs : Storing lib h st a)
    (hf : Fetches lib a h after bytes) (hstate : after.state ≠ .fetched) :
    Storing lib after { st with
      prepared := true, stored := (if st.prepared then st.stored else []) ++ bytes } a := by
  have hfile : after.sizeFile = h.sizeFile := (congrArg OtaHandle.sizeFile hf.frame :)
  have hsum : after.md5sum = h.md5sum := (congrArg OtaHandle.md5sum hf.frame :)
  have hpurl : after.purl = h.purl := (congrArg OtaHandle.purl hf.frame :)
  obtain ⟨-, htype⟩ := hf.state.resolve_left fun hd => hstate hd.1
  refine ⟨⟨hs.kind, hfile.trans hs.size, hsum ▸ hs.md5sum, hpurl ▸ hs.url⟩,
    htype.trans hs.type, hf.file, fun _ => ⟨.inl hf.md5, .inl hf.sha256⟩, fun _ ch hch => ?_,
    hs.fine, fun _ => hs.stored_append hf, nofun⟩
  exact Option.some.inj (hch.symm.trans hf.channel)

/-! ### A turn of `dm_fota_perform_sync` -/

structure FotaTurned (lib : OtaLib) (a : Announced) (r : Turned) : Prop where
  committed : r.finalized ≠ none → r.valid = true ∧
    r.storage.stored = a.part lib a.size ∧ r.storage.stored.length = a.size.toNat
  succeeded : r.returned = some State.success → r.finalized = some true
  going : r.returned = none → Storing lib r.h r.storage a
  aimed : r.h.type = .fota → Aimed r.h a

theorem fotaTurned_void {env : StorageEnv} {ret : Int} (hv : st.Void) (hret : ret ≠ State.success)
    (ha : h.type = .fota → Aimed h a) :
    FotaTurned lib a (.stop env h st false ret) where
  committed := fun hfin => absurd (stop_void hv) hfin
  succeeded := fun hsucc => absurd (Option.some.inj hsucc) hret
  going := nofun
  aimed := ha

theorem fotaTurned_go {retryTimeout : Int} (hs : Storing lib h st a) :
    FotaTurned lib a (.go h st retryTimeout) where
  committed := fun hfin => absurd rfl hfin
  succeeded := nofun
  going := fun _ => hs
  aimed := fun _ => hs.toAimed

theorem Aimed.fetches (ha : Aimed h a) (hf : Fetches lib a h after bytes) : Aimed after a := by
  have hfile : after.sizeFile = h.sizeFile := (congrArg OtaHandle.sizeFile hf.frame :)
  have hsum : after.md5sum = h.md5sum := (congrArg OtaHandle.md5sum hf.frame :)
  have hpurl : after.purl = h.purl := (congrArg OtaHandle.purl hf.frame :)
  exact ⟨ha.kind, hfile.trans ha.size, hsum ▸ ha.md5sum, hpurl ▸ ha.url⟩

theorem ioctl_checkFirmware (hstate : h.state = .fetched) :
    otaIoctl lib h .checkFirmware numberBuf true = checkFirmware lib h := by
  have hlive : ¬ (h.state = .uninited ∨ h.state = .inited) := by
    rw [hstate]
    exact fun h => h.elim nofun nofun
  unfold otaIoctl
  rw [if_neg (by decide), if_neg hlive, if_neg (by decide), if_neg (not_not.mpr hstate)]

theorem checkFirmware_genuine (hsum : cstrOf h.md5sum = a.md5)
    (hctx : h.md5 = some ⟨a.part lib a.size, false⟩)
    (hgen : a.md5.val = hexStr (lib.md5 (a.part lib a.size))) :
    checkFirmware lib h = .ok ⟨0, some (.number 1), [⟨a.part lib a.size, false⟩],
      { h with md5 := none }⟩ := by
  unfold checkFirmware
  rw [hctx]
  dsimp only
  have hverdict : verdict (cstrOf h.md5sum).val
      (Digest.finish ⟨a.part lib a.size, false⟩ lib.md5 bitsLe).1 = 1 := by
    rw [hsum]
    exact if_pos hgen
  rw [hverdict]

variable {env : TurnEnv}

theorem fotaCheck_turned {s : OtaSync} (hs : Storing lib s.h s.storage a)
    (hf : Fetches lib a s.h after bytes)
    (hcare : s.h.sizeFetched + UInt32.ofNat bytes.length ≥ s.h.sizeFile →
      env.storage.finalize = true ∧ a.md5.val = hexStr (lib.md5 (a.part lib a.size))) {r : Turned}
    (hr : fotaCheck lib env after { s.storage with
      prepared := true
      stored := (if s.storage.prepared then s.storage.stored else []) ++ bytes } = .ok r) :
    FotaTurned lib a r := by
  have haim := hs.toAimed.fetches hf
  unfold fotaCheck at hr
  split at hr
  · cases hr
  split at hr
  · next hfinish =>
    have hstate : after.state = .fetched := of_decide_eq_true hfinish
    have hdone : after.sizeFetched = s.h.sizeFile := by
      rcases hf.state with ⟨_, hdone⟩ | ⟨hd, _⟩
      · exact hdone
      · exact absurd (hstate.symm.trans hd) nofun
    have hsum : s.h.sizeFetched + UInt32.ofNat bytes.length = s.h.sizeFile := by
      have hlt : s.h.sizeFetched.toNat + bytes.length < 2 ^ 32 := by
        rw [← hf.size]
        exact after.sizeFetched.toNat_lt
      rw [← hdone]
      apply UInt32.toNat_inj.mp
      rw [hf.size, UInt32.toNat_add, UInt32.toNat_ofNat', Nat.add_mod_mod, Nat.mod_eq_of_lt hlt]
    obtain ⟨hfinal, hgen⟩ := hcare (hsum ▸ UInt32.le_refl _)
    have hsize : after.sizeFetched = a.size := hdone.trans hs.size
    have hchecked := checkFirmware_genuine haim.md5sum (hsize ▸ hf.md5) hgen
    rw [ioctl_checkFirmware hstate, hchecked] at hr
    cases hr
    have hstop := stop_stored env.storage { s.storage with
      prepared := true
      stored := (if s.storage.prepared then s.storage.stored else []) ++ bytes } rfl hs.fine
    have hstored := hs.stored_append hf
    rw [hsize] at hstored
    refine ⟨fun _ => ⟨rfl, hstored, ?_⟩, fun _ => ?_, nofun,
      fun _ => ⟨haim.kind, haim.size, haim.md5sum, haim.url⟩⟩
    · rw [hstored]
      exact List.length_take_of_le (hsize ▸ hf.file)
    · exact hstop.trans (congrArg some hfinal)
  · next hfinish =>
    cases hr
    exact fotaTurned_go (hs.written hf fun hstate => hfinish (decide_eq_true hstate))

theorem fotaTurn_turned {s : OtaSync} (ha : s.accepted = some a)
    (hs : Storing lib s.h s.storage a) {retryTimeout : Int}
    (hc : s.FotaCareful lib env bufLen retryTimeout) {r : Turned}
    (hr : fotaTurn lib env bufLen retryTimeout s.h s.storage = .ok r) : FotaTurned lib a r := by
  obtain ⟨hgoes, hgives, hcompletes⟩ := hc
  unfold fotaTurn at hr
  rcases hfetch : otaFetchYield lib env.fetch s.h true bufLen with fault | f
  · rw [hfetch] at hr
    cases hr
  rw [hfetch] at hr
  dsimp only at hr
  cases fetch_outcome hfetch with
  | stalled hret hno hst =>
    have hs' := hs.stalled hst
    rw [if_pos hret] at hr
    split at hr
    · next hretry =>
      cases hr
      rw [resetState_eq]
      exact fotaTurned_void (hgives hno hretry) (by decide) fun _ => hs'.toAimed
    · cases hr
      exact fotaTurned_go hs'
  | @brought _ _ _ _ bytes hb hm hn hopen hf =>
    obtain ⟨after, heq, hfetches⟩ := hs.fetches ha (hgoes hb) hb hm hn hopen hf
    rw [heq] at hr
    rw [if_neg (Int.not_lt.mpr (Int.natCast_nonneg _))] at hr
    have hw := write_written lib env.storage after s.storage bytes
    generalize halFirmwarePersistenceWrite lib env.storage after s.storage bytes = w at hw hr
    cases hw with
    | fault => cases hr
    | failed hv =>
      cases hr
      rw [resetState_eq]
      exact fotaTurned_void hv (by decide) fun _ => hs.toAimed.fetches hfetches
    | stored htakes =>
      refine fotaCheck_turned hs hfetches (fun hdone => ?_) hr
      obtain ⟨hfinal, hgen⟩ := hcompletes hb ⟨_, _, _, hopen, hf, hdone⟩ htakes
      exact ⟨hfinal, hgen a ha⟩

/-! ### A turn of `dm_cota_perform_sync` -/

theorem fetchedBytes_brings (env : FetchEnv) (h : OtaHandle) (bytes : List UInt8)
    (hfirst : h.sizeFetched = 0 → env.md5First = true ∧ env.sha256First = true) :
    ∃ md5 sha256, fetchedBytes env h bytes =
      ⟨bytes.length, bytes, OtaHandle.absorb { h with md5 := md5, sha256 := sha256 } bytes⟩ := by
  unfold fetchedBytes
  split
  · next hz =>
    obtain ⟨hmd5, hsha256⟩ := hfirst hz
    rw [if_neg (by rw [hmd5]; nofun), if_neg (by rw [hsha256]; nofun)]
    exact ⟨_, _, rfl⟩
  · exact ⟨h.md5, h.sha256, rfl⟩

theorem absorb_type (h : OtaHandle) (bytes : List UInt8) :
    ((h.absorb bytes).type = .none ∨ (h.absorb bytes).type = h.type) ∧
    ((h.absorb bytes).state = .fetched →
      h.sizeFetched + UInt32.ofNat bytes.length ≥ h.sizeFile ∨ h.state = .fetched) := by
  unfold OtaHandle.absorb
  dsimp only
  split
  · next hdone => exact ⟨.inl rfl, fun _ => .inl hdone⟩
  · exact ⟨.inr rfl, .inr⟩

theorem ioctl_type {cmd : OtaCmd} {buf : IoctlBuf} {r : Ioctled}
    (hr : otaIoctl lib h cmd buf malloc = .ok r) : r.h.type = .none ∨ r.h.type = h.type := by
  have hioctl := ioctl_ioctling lib h cmd buf malloc
  rw [hr] at hioctl
  generalize hres : (Except.ok r : Except OtaFault Ioctled) = res at hioctl
  cases hioctl with
  | kept | resetFetchedSize =>
    cases hres
    exact .inr rfl
  | nullVersion => cases hres
  | checkFirmware =>
    unfold checkFirmware at hres
    split at hres
    · cases hres
    · cases hres
      exact .inr rfl
  | checkConfig =>
    have hc := checkConfig_checked lib h
    rw [← hres] at hc
    cases hc
    exact .inr rfl
  | resetState =>
    cases hres
    exact .inl rfl

theorem type_ne {type type' : OtaType} (hne : type ≠ .fota) (h : type' = .none ∨ type' = type) :
    type' ≠ .fota := by
  rcases h with rfl | rfl
  · nofun
  · exact hne

theorem cotaCheck_void (htype : h.type ≠ .fota)
    (hv : h.state = .fetched → st.Void) {r : Turned} (hr : cotaCheck lib env h st = .ok r) :
    r.finalized = none ∧ r.h.type ≠ .fota := by
  unfold cotaCheck at hr
  split at hr
  · cases hr
  split at hr
  · next hfinish =>
    have hvoid := hv (of_decide_eq_true hfinish)
    rcases hcheck : otaIoctl lib h .checkConfig numberBuf true with fault | c
    · rw [hcheck] at hr
      cases hr
    rw [hcheck] at hr
    dsimp only at hr
    have hkept := type_ne htype (ioctl_type hcheck)
    split at hr <;> cases hr <;> exact ⟨stop_void hvoid, hkept⟩
  · cases hr
    exact ⟨rfl, htype⟩

theorem cotaTurn_void {s : OtaSync} (htype : s.h.type ≠ .fota)
    (hc : s.CotaCareful lib env bufLen) {r : Turned}
    (hr : cotaTurn lib env bufLen s.h s.storage = .ok r) :
    r.finalized = none ∧ r.h.type ≠ .fota := by
  obtain ⟨hgives, hcompletes⟩ := hc
  unfold cotaTurn at hr
  rcases hfetch : otaFetchYield lib env.fetch s.h true bufLen with fault | f
  · rw [hfetch] at hr
    cases hr
  rw [hfetch] at hr
  dsimp only at hr
  cases fetch_outcome hfetch with
  | stalled hret hno hst =>
    rw [if_pos hret] at hr
    cases hr
    have hsame : f.h.type = s.h.type := (congrArg OtaHandle.type hst.frame :)
    exact ⟨stop_void (hgives hno), fun heq => htype (hsame.symm.trans heq)⟩
  | @brought d e ch next bytes hb hm hn hopen hf =>
    obtain ⟨md5, sha256, heq⟩ := fetchedBytes_brings env.fetch { s.h with
      state := .fetching, md5 := some d, sha256 := some e, chFetch := some next } bytes hb.2.2.2
    rw [heq] at hr
    rw [if_neg (Int.not_lt.mpr (Int.natCast_nonneg _))] at hr
    obtain ⟨hkept, hdone⟩ := absorb_type { s.h with
      state := .fetching, md5 := md5, sha256 := sha256, chFetch := some next } bytes
    generalize OtaHandle.absorb _ bytes = after at hr hkept hdone
    have hw := write_written lib env.storage after s.storage bytes
    generalize halFirmwarePersistenceWrite lib env.storage after s.storage bytes = w at hw hr
    cases hw with
    | fault => cases hr
    | failed hv => exact cotaCheck_void (type_ne htype hkept) (fun _ => hv) hr
    | stored htakes =>
      refine cotaCheck_void (type_ne htype hkept) (fun hstate => .inr ?_) hr
      rcases hdone hstate with hlast | hfetched
      · exact hcompletes hb ⟨ch, next, bytes, hopen, hf, hlast⟩ htakes
      · cases hfetched

/-! ### Messages and the start of a call -/

theorem Aimed.kept (ha : Aimed h a) (hsize : after.sizeFile = h.sizeFile)
    (hsum : after.md5sum = h.md5sum) (hurl : after.purl = h.purl ∨ after.purl = none) :
    Aimed after a := by
  refine ⟨ha.kind, hsize.trans ha.size, hsum ▸ ha.md5sum, fun url hmem => ?_⟩
  rcases hurl with hsame | hlost
  · exact ha.url url (hsame ▸ hmem)
  · cases hlost.symm.trans hmem

theorem not_readsMd5 {env : CallbackEnv} {doc : List UInt8}
    (hno : readsUrl lib env doc = false) : readsMd5 lib env doc = false := by
  unfold readsMd5
  rw [hno, Bool.false_and]

theorem firmware_aimed {env : CallbackEnv} {doc : List UInt8}
    (hr : FirmwareRead lib env doc h (.ok after)) (hterm : h.Terminated (valueOf lib doc "md5"))
    (ch : FetchChannel) : Aimed { after with chFetch := some ch, type := .fota, state := .pushed }
      (announcedBy lib env doc .fota) := by
  obtain ⟨-, rfl⟩ := hr.stored
  refine ⟨rfl, rfl, cstrOf_overwrite hterm, fun url hurl => ?_⟩
  cases hurl
  rfl

namespace OtaSync

/-- Between calls the handle is aimed at the firmware that is announced, if one is; a call
keeps the storage where the download is, or downloads a configuration. -/
def Inv (lib : OtaLib) (s : OtaSync) : Prop :=
  match s.phase with
  | .idle => s.h.type = .fota → ∃ a ∈ s.accepted, Aimed s.h a
  | .fota .. => ∃ a ∈ s.accepted, Storing lib s.h s.storage a
  | .cota _ => s.h.type ≠ .fota
  | .crashed => True

variable {s : OtaSync}

theorem inv_idle (hp : s.phase = .idle) :
    s.Inv lib ↔ (s.h.type = .fota → ∃ a ∈ s.accepted, Aimed s.h a) := by
  unfold Inv
  rw [hp]

theorem inv_of_idle (hp : s.phase = .idle) {h : OtaHandle} {accepted : Option Announced}
    (hi : h.type = .fota → ∃ a ∈ accepted, Aimed h a) :
    Inv lib { s with h := h, accepted := accepted } := by
  rw [hp]
  exact hi

theorem Inv.message (hi : s.Inv lib) (env : CallbackEnv) (msg : List UInt8) (type : OtaTopic)
    (hc : s.Careful lib (.message env msg type)) :
    (s.next lib (.message env msg type)).Inv lib := by
  unfold next
  dsimp only
  split
  swap
  · exact hi
  next hp =>
  have hcare := hc hp
  rw [inv_idle hp] at hi
  refine inv_of_idle hp ?_
  have hreceived := callback_received lib env s.h msg type
  generalize otaCallback lib env s.h msg type = r at hreceived ⊢
  cases hreceived with
  | ignored => exact hi
  | firmwareUnread hs hk hdoc hr =>
    have hmsg := hcare hs _ hdoc
    unfold MessageCareful at hmsg
    rw [if_pos hk, not_readsFirmware hr, Bool.false_and, if_neg nofun] at hmsg
    intro hfota
    have htype : s.h.type = .fota := (congrArg OtaHandle.type hr.frame :).symm.trans hfota
    obtain ⟨a, ha, haim⟩ := hi htype
    exact ⟨a, ha, haim.kept hr.sizeFile_unread (hr.md5sum_unread (not_readsMd5 (hmsg htype)))
      (hr.purl_unread (hmsg htype))⟩
  | firmwareClosed hs hk hdoc hr hno =>
    have hmsg := hcare hs _ hdoc
    unfold MessageCareful at hmsg
    rw [if_pos hk, opens_firmware hr, hno, Option.isSome_none, Bool.and_false,
      if_neg nofun] at hmsg
    have hread := hr.stored.1
    unfold readsFirmware readsMd5 at hread
    intro hfota
    have htype : s.h.type = .fota := (congrArg OtaHandle.type hr.frame :).symm.trans hfota
    rw [hmsg htype] at hread
    cases hread
  | @firmware doc after url ch hs hk hdoc hr hu hch =>
    have hmsg := hcare hs _ hdoc
    unfold MessageCareful at hmsg
    have hopens : opens lib env doc s.h.sizeFetched = true := by
      rw [opens_firmware hr, hu]
      exact (congrArg Option.isSome hch).trans rfl
    rw [if_pos hk, hr.stored.1, hopens, Bool.and_self, if_pos rfl] at hmsg
    rw [if_pos rfl, hdoc, hk]
    exact fun _ => ⟨_, rfl, firmware_aimed hr hmsg ch⟩
  | configUnread hs hk hdoc hr =>
    intro hfota
    have htype : s.h.type = .fota := (congrArg OtaHandle.type hr.frame :).symm.trans hfota
    obtain ⟨a, ha, haim⟩ := hi htype
    exact ⟨a, ha, haim.kept (congrArg OtaHandle.sizeFile hr.frame :)
      (congrArg OtaHandle.md5sum hr.frame :) (.inl (congrArg OtaHandle.purl hr.frame :))⟩
  | configClosed hs hk hdoc hr hno =>
    have hmsg := hcare hs _ hdoc
    unfold MessageCareful at hmsg
    have hread := hr.readsConfig_iff.mpr ⟨_, rfl⟩
    rw [if_neg (by rw [hk]; nofun), opens_config hr, hno, hread] at hmsg
    intro hfota
    have htype : s.h.type = .fota := (congrArg OtaHandle.type hr.frame :).symm.trans hfota
    cases hmsg rfl htype
  | config => nofun

theorem Inv.start (hi : s.Inv lib) (kind : OtaType) (hkind : kind ≠ .none)
    (output : Bool) (outputLen : Int) {phase : Nat → SyncPhase}
    (hphase : ∀ {bufLen : Nat} {h : OtaHandle} {st : Storage},
      s.h.type = kind → h = { s.h with sizeFetched := 0 } →
      st = halFirmwarePersistenceStart s.storage →
      Inv lib { s with h := h, storage := st, phase := phase bufLen }) :
    (s.start lib kind output outputLen phase).Inv lib := by
  unfold OtaSync.start
  split
  · exact trivial
  · exact hi
  · next h st hs =>
    obtain ⟨-, htype, hh, hst⟩ := performStart_some hkind hs
    exact hphase htype hh hst

theorem Inv.fota (hi : s.Inv lib) (hp : s.phase = .idle) (output : Bool) (outputLen : Int) :
    (s.start lib .fota output outputLen fun bufLen => .fota bufLen 0).Inv lib := by
  refine hi.start .fota nofun output outputLen fun {_ h st} htype hh hst => ?_
  obtain ⟨a, ha, haim⟩ := (inv_idle hp).mp hi htype
  subst hh
  subst hst
  exact ⟨a, ha, ⟨haim.kind, haim.size, haim.md5sum, haim.url⟩, htype, Nat.zero_le _,
    fun hz => absurd rfl hz, fun hz => absurd rfl hz, rfl, nofun, fun _ => rfl⟩

theorem Inv.cota (hi : s.Inv lib) (output : Bool) (outputLen : Int) :
    (s.start lib .cota output outputLen fun bufLen => .cota bufLen).Inv lib := by
  refine hi.start .cota nofun output outputLen fun {_ h st} htype hh hst => ?_
  subst hh
  exact fun heq => absurd (htype.symm.trans heq) nofun

theorem Inv.fotaTurn (hi : s.Inv lib) {bufLen : Nat} {retryTimeout : Int}
    (hp : s.phase = .fota bufLen retryTimeout) {env : TurnEnv}
    (hc : s.Careful lib (.turn env)) {r : Turned}
    (hr : fotaTurn lib env bufLen retryTimeout s.h s.storage = .ok r) :
    ∃ a ∈ s.accepted, a.kind = .fota ∧ FotaTurned lib a r := by
  unfold Careful at hc
  unfold Inv at hi
  rw [hp] at hc hi
  obtain ⟨a, ha, hs⟩ := hi
  exact ⟨a, ha, hs.kind, fotaTurn_turned ha hs hc hr⟩

theorem Inv.cotaTurn (hi : s.Inv lib) {bufLen : Nat} (hp : s.phase = .cota bufLen)
    {env : TurnEnv} (hc : s.Careful lib (.turn env)) {r : Turned}
    (hr : cotaTurn lib env bufLen s.h s.storage = .ok r) :
    r.finalized = none ∧ r.h.type ≠ .fota := by
  unfold Careful at hc
  unfold Inv at hi
  rw [hp] at hc hi
  exact cotaTurn_void hi hc hr

theorem Inv.turn (hi : s.Inv lib) (env : TurnEnv) (hc : s.Careful lib (.turn env)) :
    (s.next lib (.turn env)).Inv lib := by
  unfold next turned
  cases hp : s.phase with
  | idle | crashed => exact hi
  | fota bufLen retryTimeout =>
    dsimp only
    cases hr : Ota.fotaTurn lib env bufLen retryTimeout s.h s.storage with
    | error fault => exact trivial
    | ok r =>
      obtain ⟨a, ha, -, hturned⟩ := hi.fotaTurn hp hc hr
      unfold Inv SyncPhase.after
      dsimp only
      by_cases hreturned : r.returned = none
      · rw [if_pos hreturned]
        exact ⟨a, ha, hturned.going hreturned⟩
      · rw [if_neg hreturned]
        exact fun htype => ⟨a, ha, hturned.aimed htype⟩
  | cota bufLen =>
    dsimp only
    cases hr : Ota.cotaTurn lib env bufLen s.h s.storage with
    | error fault => exact trivial
    | ok r =>
      obtain ⟨-, htype⟩ := hi.cotaTurn hp hc hr
      unfold Inv SyncPhase.after
      dsimp only
      by_cases hreturned : r.returned = none
      · rw [if_pos hreturned]
        exact htype
      · rw [if_neg hreturned]
        exact fun hfota => absurd hfota htype

theorem Inv.next (hi : s.Inv lib) (op : SyncOp) (hc : s.Careful lib op) :
    (s.next lib op).Inv lib := by
  cases op with
  | message env msg type => exact hi.message env msg type hc
  | fota output outputLen =>
    unfold OtaSync.next
    dsimp only
    split
    · next hp => exact hi.fota hp output outputLen
    · exact hi
  | cota output outputLen =>
    unfold OtaSync.next
    dsimp only
    split
    · exact hi.cota output outputLen
    · exact hi
  | turn env => exact hi.turn env hc

theorem Inv.committed (hi : s.Inv lib) (op : SyncOp) (hc : s.Careful lib op) :
    s.Committed lib op := by
  cases op with
  | message | fota | cota => exact trivial
  | turn env =>
    intro r hr
    unfold turned at hr
    cases hp : s.phase with
    | idle | crashed =>
      rw [hp] at hr
      cases hr
    | fota bufLen retryTimeout =>
      rw [hp] at hr
      obtain ⟨a, ha, hkind, hturned⟩ := hi.fotaTurn hp hc (Option.some.inj hr)
      refine ⟨fun hfin => ?_, fun _ _ _ => hturned.succeeded⟩
      obtain ⟨hvalid, hstored, hlen⟩ := hturned.committed hfin
      exact ⟨hvalid, a, ha, hkind, hstored, hlen⟩
    | cota bufLen =>
      rw [hp] at hr
      obtain ⟨hnone, -⟩ := hi.cotaTurn hp hc (Option.some.inj hr)
      exact ⟨fun hfin => absurd hnone hfin, nofun⟩

end OtaSync

end

def turnEnv : TurnEnv := ⟨⟨true, true, true, .ok 1, true, true⟩, ⟨true, true, true⟩, 60000⟩

end AliyunIot.Ota
