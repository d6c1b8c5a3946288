import AliyunIot.Ota.Commit

/-!
# A download that fails

`dm_fota_perform_sync` asks for `IOT_OTAG_RESET_STATE` on each of its failing exits, with a null
buffer, which `IOT_OTA_Ioctl` rejects before it looks at the command. `fota_rolledBack_iff` says
what is left of the rollback.
-/

namespace AliyunIot.Ota

open Lib

section
variable (lib : OtaLib)

/-! ## The whole call -/

/-- The loop of `dm_fota_perform_sync` by one turn, until it returns. -/
def fotaStep (bufLen : Nat) (s : Except SyncFault Turned) (env : TurnEnv) :
    Except SyncFault Turned :=
  match s with
  | .error fault => .error fault
  | .ok t =>
    if t.returned = none then fotaTurn lib env bufLen t.retryTimeout t.h t.storage else .ok t

/-- `dm_fota_perform_sync`, as far as its loop comes with these turns. -/
def dmFotaPerformSync (output : Bool) (outputLen : Int) (h : OtaHandle) (st : Storage)
    (turns : List TurnEnv) : Except SyncFault Turned :=
  match performStart lib .fota output outputLen h st with
  | .error fault => .error (.ota fault)
  | .ok none =>
    let ret :=
      if output = false ∨ outputLen ≤ 0 then State.userInputInvalid
      else State.devModelOtaTypeError
    .ok ⟨h, st, 0, false, none, some ret⟩
  | .ok (some (h, st)) => run (fotaStep lib outputLen.toNat) (.ok (.go h st 0)) turns

/-! ## What is asked -/

def IsDownloadError (ret : Int) : Prop :=
  ret = State.devModelOtaFetchFailed ∨ ret = State.sysDependFirmwaireWirte ∨
    ret = State.devModelOtaImageCheckFailed

instance (ret : Int) : Decidable (IsDownloadError ret) :=
  inferInstanceAs (Decidable (_ ∨ _ ∨ _))

/-- No announcement and nothing fetched. -/
structure OtaHandle.Reset (h : OtaHandle) : Prop where
  state : h.state = .inited
  type : h.type = .none
  sizeFetched : h.sizeFetched = 0

instance (h : OtaHandle) : Decidable h.Reset :=
  decidable_of_iff (h.state = .inited ∧ h.type = .none ∧ h.sizeFetched = 0)
    ⟨fun ⟨hs, ht, hf⟩ => ⟨hs, ht, hf⟩, fun h => ⟨h.state, h.type, h.sizeFetched⟩⟩

/-- A call that has returned the error of a failed download has reset the handle, and no call
divides by zero. -/
def RolledBack : Except SyncFault Turned → Prop
  | .error .divideByZero => False
  | .error (.ota _) => True
  | .ok t => ∀ ret, t.returned = some ret → IsDownloadError ret → t.h.Reset

instance : (r : Except SyncFault Turned) → Decidable (RolledBack r)
  | .error .divideByZero => .isFalse id
  | .error (.ota _) => .isTrue trivial
  | .ok t => inferInstanceAs (Decidable (∀ ret ∈ t.returned, IsDownloadError ret → t.h.Reset))

/-- A turn goes on or ends the download well: a fetch fails within the retry timeout only; what is
fetched is stored, the announced size is not 0, and a complete image has the announced digest. -/
def TurnSucceeds (bufLen : Nat) (t : Turned) (env : TurnEnv) : Prop :=
  match otaFetchYield lib env.fetch t.h true bufLen with
  | .error _ => True
  | .ok r =>
    if r.ret < 0 then t.retryTimeout < env.retryMaxTimeout
    else
      match halFirmwarePersistenceWrite lib env.storage r.h t.storage r.bytes with
      | .error _ => True
      | .ok (ret, _) =>
        0 ≤ ret ∧ t.h.sizeFile ≠ 0 ∧ (otaIsFetchFinish r.h →
          ∀ checked, otaIoctl lib r.h .checkFirmware numberBuf true = .ok checked →
            checked.number ≠ 0)

/-- Every turn that is reached does so. -/
def StepSucceeds (bufLen : Nat) (s : Except SyncFault Turned) (env : TurnEnv) : Prop :=
  ∀ t, s = .ok t → t.returned = none → TurnSucceeds lib bufLen t env

/-! ## One turn -/

/-- A firmware or a configuration has been announced. -/
def OtaHandle.Pushed (h : OtaHandle) : Prop := ¬ (h.state = .uninited ∨ h.state = .inited)

variable {lib}

theorem fetchedBytes_pushed {h : OtaHandle} (hp : h.Pushed) (env : FetchEnv) (bytes : List UInt8) :
    (fetchedBytes env h bytes).h.Pushed ∧ (fetchedBytes env h bytes).h.sizeFile = h.sizeFile := by
  have habsorb {h : OtaHandle} (hp : h.Pushed) :
      (h.absorb bytes).Pushed ∧ (h.absorb bytes).sizeFile = h.sizeFile := by
    unfold OtaHandle.absorb
    dsimp only
    split
    · exact ⟨fun h => h.elim nofun nofun, rfl⟩
    · exact ⟨hp, rfl⟩
  unfold fetchedBytes
  split
  · split
    · exact ⟨hp, rfl⟩
    · split
      · exact ⟨hp, rfl⟩
      · exact habsorb (h := { h with md5 := digestInit true, sha256 := digestInit true }) hp
  · exact habsorb hp

theorem fetchYield_pushed {h : OtaHandle} (hp : h.Pushed) {env : FetchEnv} {bufLen : Nat}
    {r : Fetched} (hr : otaFetchYield lib env h true bufLen = .ok r) :
    r.h.Pushed ∧ r.h.sizeFile = h.sizeFile := by
  have hy := fetchYield_yielded lib env h true bufLen
  rw [hr] at hy
  generalize hres : (Except.ok r : Except OtaFault Fetched) = res at hy
  have hfetching : ¬ (OtaState.fetching = .uninited ∨ OtaState.fetching = .inited) :=
    fun h => h.elim nofun nofun
  cases hy with
  | refused =>
    cases hres
    exact ⟨hp, rfl⟩
  | noMd5 | noSha256 | noChannel | failed =>
    cases hres
    exact ⟨hfetching, rfl⟩
  | nullUrl => cases hres
  | fetched =>
    cases hres
    refine fetchedBytes_pushed ?_ _ _
    exact hfetching

theorem checkFirmware_state {h : OtaHandle} {r : Ioctled} (hr : checkFirmware lib h = .ok r) :
    r.h.state = h.state := by
  unfold checkFirmware at hr
  split at hr
  · cases hr
  · cases hr
    rfl

theorem not_isDownloadError_success : ¬ IsDownloadError State.success := by decide

theorem OtaHandle.Pushed.not_reset {h : OtaHandle} (hp : h.Pushed) : ¬ h.Reset :=
  fun hr => hp (.inr hr.state)

theorem not_rolledBack_stop {h : OtaHandle} (hp : h.Pushed) (env : StorageEnv) (st : Storage)
    (valid : Bool) {ret : Int} (hret : IsDownloadError ret) :
    ¬ RolledBack (.ok (.stop env (resetState lib h) st valid ret)) := by
  rw [resetState_eq]
  exact fun h => hp.not_reset (h ret rfl hret)

theorem fotaCheck_rolledBack {h : OtaHandle} (hp : h.Pushed) (env : TurnEnv) (st : Storage) :
    RolledBack (fotaCheck lib env h st) ↔
      h.sizeFile ≠ 0 ∧ (otaIsFetchFinish h → ∀ checked,
        otaIoctl lib h .checkFirmware numberBuf true = .ok checked → checked.number ≠ 0) := by
  unfold fotaCheck
  by_cases hsize : h.sizeFile = 0
  · rw [if_pos hsize]
    exact iff_of_false id fun hboth => hboth.1 hsize
  rw [if_neg hsize, and_iff_right hsize]
  by_cases hfinish : otaIsFetchFinish h = true
  swap
  · rw [if_neg hfinish]
    exact iff_of_true (fun _ h => nomatch h) fun h => absurd h hfinish
  rw [if_pos hfinish]
  simp only [hfinish, true_imp_iff]
  rw [ioctl_checkFirmware (of_decide_eq_true hfinish)]
  cases hcheck : checkFirmware lib h with
  | error fault => exact iff_of_true trivial fun _ h => nomatch h
  | ok r =>
    have hp' : r.h.Pushed := by
      unfold OtaHandle.Pushed
      rw [checkFirmware_state hcheck]
      exact hp
    dsimp only
    by_cases hnumber : r.number = 0
    · rw [if_pos hnumber]
      refine iff_of_false (not_rolledBack_stop hp' _ _ _ (.inr (.inr rfl))) fun hall => ?_
      exact hall r rfl hnumber
    · rw [if_neg hnumber]
      refine iff_of_true (fun ret hret herr => ?_) fun checked hchecked => ?_
      · cases hret
        exact absurd herr not_isDownloadError_success
      · cases hchecked
        exact hnumber

theorem fotaTurn_rolledBack {t : Turned} (hp : t.h.Pushed) (bufLen : Nat) (env : TurnEnv) :
    RolledBack (fotaTurn lib env bufLen t.retryTimeout t.h t.storage) ↔
      TurnSucceeds lib bufLen t env := by
  unfold fotaTurn TurnSucceeds
  cases hfetch : otaFetchYield lib env.fetch t.h true bufLen with
  | error fault => exact Iff.rfl
  | ok r =>
    obtain ⟨hpushed, hsize⟩ := fetchYield_pushed hp hfetch
    dsimp only
    by_cases hret : r.ret < 0
    · rw [if_pos hret, if_pos hret]
      by_cases hretry : t.retryTimeout ≥ env.retryMaxTimeout
      · rw [if_pos hretry]
        exact iff_of_false (not_rolledBack_stop hpushed _ _ _ (.inl rfl)) (by omega)
      · rw [if_neg hretry]
        exact iff_of_true (fun _ h => nomatch h) (by omega)
    rw [if_neg hret, if_neg hret]
    cases hwrite : halFirmwarePersistenceWrite lib env.storage r.h t.storage r.bytes with
    | error fault => exact Iff.rfl
    | ok w =>
      obtain ⟨ret, st⟩ := w
      dsimp only
      by_cases hneg : ret < 0
      · rw [if_pos hneg]
        exact iff_of_false (not_rolledBack_stop hpushed _ _ _ (.inr (.inl rfl))) (by omega)
      · rw [if_neg hneg, fotaCheck_rolledBack hpushed, hsize, and_iff_right (by omega : 0 ≤ ret)]

theorem fotaTurn_pushed {t t' : Turned} (hp : t.h.Pushed) {bufLen : Nat} {env : TurnEnv}
    (ht : fotaTurn lib env bufLen t.retryTimeout t.h t.storage = .ok t')
    (hgo : t'.returned = none) : t'.h.Pushed := by
  unfold fotaTurn at ht
  split at ht
  · cases ht
  next r hfetch =>
  obtain ⟨hpushed, -⟩ := fetchYield_pushed hp hfetch
  split at ht
  · split at ht
    · cases ht
      cases hgo
    · cases ht
      exact hpushed
  split at ht
  · cases ht
  split at ht
  · cases ht
    cases hgo
  unfold fotaCheck at ht
  split at ht
  · cases ht
  split at ht
  · split at ht
    · cases ht
    · split at ht <;> (cases ht; cases hgo)
  · cases ht
    exact hpushed

end

/-! ## The whole call -/

/-- What has not returned keeps the announcement. -/
def StepPushed (s : Except SyncFault Turned) : Prop :=
  ∀ t, s = .ok t → t.returned = none → t.h.Pushed

theorem fotaStep_pushed (lib : OtaLib) {s : Except SyncFault Turned} (hs : StepPushed s)
    (bufLen : Nat) (env : TurnEnv) : StepPushed (fotaStep lib bufLen s env) := by
  intro t' ht' hgo
  unfold fotaStep at ht'
  split at ht'
  · cases ht'
  next t =>
  split at ht'
  · next hreturned => exact fotaTurn_pushed (hs t rfl hreturned) ht' hgo
  · next hreturned =>
    cases ht'
    exact absurd hgo hreturned

theorem fotaStep_rolledBack (lib : OtaLib) {s : Except SyncFault Turned} (hs : StepPushed s)
    (bufLen : Nat) (env : TurnEnv) :
    RolledBack (fotaStep lib bufLen s env) ↔ RolledBack s ∧ StepSucceeds lib bufLen s env := by
  unfold fotaStep StepSucceeds
  cases s with
  | error fault => exact (and_iff_left fun _ h => nomatch h).symm
  | ok t =>
    dsimp only
    by_cases hreturned : t.returned = none
    · have hgoing : RolledBack (.ok t) := by
        intro ret hret
        rw [hreturned] at hret
        cases hret
      rw [if_pos hreturned, fotaTurn_rolledBack (hs t rfl hreturned), and_iff_right hgoing]
      refine ⟨fun h t' ht' _ => ?_, fun h => h t rfl hreturned⟩
      cases ht'
      exact h
    · rw [if_neg hreturned]
      refine (and_iff_left fun t' ht' hgo => ?_).symm
      cases ht'
      exact absurd hgo hreturned

/-- A call of `dm_fota_perform_sync` is rolled back after its errors and never divides by zero
exactly when every turn that it reaches succeeds: the reset that it asks for never happens. -/
theorem fota_rolledBack_iff (lib : OtaLib) (output : Bool) (outputLen : Int) (h : OtaHandle)
    (st : Storage) (turns : List TurnEnv) :
    RolledBack (dmFotaPerformSync lib output outputLen h st turns) ↔
      ∀ h' st', performStart lib .fota output outputLen h st = .ok (some (h', st')) →
        Meets (fotaStep lib outputLen.toNat) (StepSucceeds lib outputLen.toNat)
          (.ok (.go h' st' 0)) turns := by
  unfold dmFotaPerformSync
  cases hstart : performStart lib .fota output outputLen h st with
  | error fault => exact iff_of_true trivial fun _ _ h => nomatch h
  | ok started =>
    cases started with
    | none =>
      refine iff_of_true (fun ret hret herr => ?_) fun _ _ h => nomatch h
      rw [← Option.some.inj hret] at herr
      split at herr
      · exact absurd herr (by decide)
      · exact absurd herr (by decide)
    | some handle =>
      obtain ⟨h', st'⟩ := handle
      obtain ⟨hpushed, -, rfl, -⟩ := performStart_some (by decide) hstart
      have hs : StepPushed (.ok (.go { h with sizeFetched := 0 } st' 0)) := by
        intro t ht _
        cases ht
        exact hpushed
      have hgoing : RolledBack (.ok (.go { h with sizeFetched := 0 } st' 0)) := nofun
      rw [run_iff_meets (fun _ env hs => fotaStep_pushed lib hs outputLen.toNat env)
        (fun _ env hs => fotaStep_rolledBack lib hs outputLen.toNat env) hs, and_iff_right hgoing]
      refine ⟨fun hm h'' st'' heq => ?_, fun hall => hall _ _ rfl⟩
      cases heq
      exact hm

def announcedHandle : OtaHandle :=
  (OtaSync.next oneByteLib .init (.message plentyEnv firmwareText.val .deviceUpgrate)).h

def unwritableTurn : TurnEnv := { turnEnv with storage := ⟨true, false, true⟩ }

/-- The write fails, and the handle stays in the state in which the fetch left it. Where the
announced size is 0, the first turn divides by it. -/
theorem fota_not_rolledBack :
    (dmFotaPerformSync oneByteLib true 1 announcedHandle ⟨false, false, []⟩
        [unwritableTurn]).toOption.map (fun t => (t.returned, t.h.state, t.h.sizeFetched)) =
      some (some State.sysDependFirmwaireWirte, .fetched, 1) ∧
    ¬ RolledBack (dmFotaPerformSync oneByteLib true 1 announcedHandle ⟨false, false, []⟩
        [unwritableTurn]) ∧
    ¬ RolledBack (dmFotaPerformSync oneByteLib true 1 { announcedHandle with sizeFile := 0 }
        ⟨false, false, []⟩ [turnEnv]) := by
  decide +kernel

end AliyunIot.Ota
