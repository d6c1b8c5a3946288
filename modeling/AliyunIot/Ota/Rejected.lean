import AliyunIot.Ota.Callback

/-!
# Rejected messages

A message that `ota_callback` does not accept may have written fields before the one
that failed. `rejected_iff` names the messages that leave the handle as it was.
-/

namespace AliyunIot.Ota

/-- The state, the fields of both kinds of message, the sizes and the channel. -/
def OtaHandle.watched (h : OtaHandle) :=
  (h.state, h.version, h.purl, h.md5sum, h.sign, h.sizeFile, h.sizeFetched, h.configId, h.chFetch)

section
variable (lib : OtaLib) (env : CallbackEnv) (doc : List UInt8)

/-- The text of a key, if there is one, is the one that its pointer had; and what is read
after it changes nothing. A pointer that has no memory is null. -/
def Keeps (key : String) (old : Option CStr) (rest : Prop) : Prop :=
  ∀ value, lib.jsonValueOf doc key = some value →
    (if env.malloc key then some (cstrOf value) else none) = old ∧ (env.malloc key = true → rest)

/-- Every field of a firmware message that is reached had its value before. -/
def FirmwareHarmless (h : OtaHandle) : Prop :=
  Keeps lib env doc "version" h.version (Keeps lib env doc "url" h.purl
    (∀ md5, Fits lib doc "md5" 32 md5 → overwrite h.md5sum md5 = h.md5sum ∧
      ∀ size, Fits lib doc "size" otaFilesizeStrLen size →
        lib.atoi (cstrOf size) = h.sizeFile ∧ h.chFetch = none))

/-- Every field of a configuration message that is reached had its value before. -/
def ConfigHarmless (h : OtaHandle) : Prop :=
  Keeps lib env doc "configId" h.configId
    (∀ size, Fits lib doc "configSize" otaFilesizeStrLen size → Keeps lib env doc "sign" h.sign
      (∀ method url getType, Reads lib env doc "signMethod" method →
        Reads lib env doc "url" url → Reads lib env doc "getType" getType →
        configSizeOf lib env size = h.sizeFile ∧ h.sizeFetched = 0 ∧ h.chFetch = none))

/-- A download is under way, the message has no payload, or what is read of it changes
nothing. -/
def Harmless (h : OtaHandle) (msg : List UInt8) (type : OtaTopic) : Prop :=
  h.state ≠ .fetching → ∀ doc, payloadOf lib msg type = some doc →
    if type.kind = .fota then FirmwareHarmless lib env doc h else ConfigHarmless lib env doc h

variable {lib env doc} {key : String}

section
variable {old s : Option CStr} {rest : Prop} {value : List UInt8}

theorem keeps_missed (h : Missed lib env doc key old s) :
    Keeps lib env doc key old rest ↔ s = old := by
  unfold Keeps
  cases h with
  | missing hv => exact iff_of_true (by rw [hv]; nofun) rfl
  | noMemory hv hm =>
    rw [hv, hm]
    exact ⟨fun h => (h _ rfl).1, fun h _ _ => ⟨h, nofun⟩⟩

theorem keeps_read (h : Reads lib env doc key value) :
    Keeps lib env doc key old rest ↔ some (cstrOf value) = old ∧ rest := by
  unfold Keeps
  rw [h.found, h.malloc]
  constructor
  · exact fun h => ⟨(h value rfl).1, (h value rfl).2 rfl⟩
  · rintro ⟨hold, hrest⟩ v hv
    cases hv
    exact ⟨hold, fun _ => hrest⟩

end

section
variable {P : List UInt8 → Prop} {value : List UInt8} {destLen : Nat} {old s : Option CStr}

theorem forall_fits (h : Fits lib doc key destLen value) :
    (∀ v, Fits lib doc key destLen v → P v) ↔ P value := by
  refine ⟨fun hP => hP value h, fun hP v hv => ?_⟩
  have heq : some value = some v := h.found.symm.trans hv.found
  cases heq
  exact hP

theorem forall_unfit (h : Unfit lib doc key destLen) :
    (∀ v, Fits lib doc key destLen v → P v) ↔ True :=
  iff_true_intro fun v hv => absurd (h v hv.found) (Nat.not_lt.mpr hv.short)

theorem not_reads_of_missed (h : Missed lib env doc key old s) (v : List UInt8) :
    ¬ Reads lib env doc key v := by
  intro hv
  cases h with
  | missing hnone => exact absurd (hnone.symm.trans hv.found) nofun
  | noMemory _ hm => exact absurd (hm.symm.trans hv.malloc) nofun

end

variable {h after : OtaHandle}

theorem firmwareUnread_iff (hr : FirmwareRead lib env doc h (.error after)) :
    after.watched = h.watched ↔ FirmwareHarmless lib env doc h := by
  unfold FirmwareHarmless OtaHandle.watched
  cases hr with
  | version hv =>
    rw [keeps_missed hv]
    simp only [Prod.mk.injEq, true_and, and_true]
  | url hv hu =>
    rw [keeps_read hv, keeps_missed hu]
    simp only [Prod.mk.injEq, true_and, and_true]
  | md5 hv hu hs =>
    rw [keeps_read hv, keeps_read hu, forall_unfit hs]
    simp only [Prod.mk.injEq, true_and, and_true]
  | size hv hu hs hz =>
    rw [keeps_read hv, keeps_read hu, forall_fits hs, forall_unfit hz]
    simp only [Prod.mk.injEq, true_and, and_true]

theorem firmwareClosed_iff (hr : FirmwareRead lib env doc h (.ok after)) :
    OtaHandle.watched { after with chFetch := none } = h.watched ↔
      FirmwareHarmless lib env doc h := by
  unfold FirmwareHarmless OtaHandle.watched
  cases hr with
  | all hv hu hs hz =>
    rw [keeps_read hv, keeps_read hu, forall_fits hs, forall_fits hz, eq_comm (a := h.chFetch)]
    simp only [Prod.mk.injEq, true_and]

theorem configUnread_iff (hr : ConfigRead lib env doc h (.error after)) :
    after.watched = h.watched ↔ ConfigHarmless lib env doc h := by
  unfold ConfigHarmless OtaHandle.watched
  cases hr with
  | configId hi =>
    rw [keeps_missed hi]
    simp only [Prod.mk.injEq, true_and, and_true]
  | configSize hi hz =>
    rw [keeps_read hi, forall_unfit hz]
    simp only [Prod.mk.injEq, true_and, and_true]
  | sign hi hz hs =>
    rw [keeps_read hi, forall_fits hz, keeps_missed hs]
    simp only [Prod.mk.injEq, true_and, and_true]
    exact and_comm
  | signMethod hi hz hs hm =>
    rw [keeps_read hi, forall_fits hz, keeps_read hs,
      and_iff_left fun v _ _ hv => absurd hv (not_reads_of_missed hm v)]
    simp only [Prod.mk.injEq, true_and, and_true]
    exact and_comm
  | url hi hz hs hm hu =>
    rw [keeps_read hi, forall_fits hz, keeps_read hs,
      and_iff_left fun _ v _ _ hv => absurd hv (not_reads_of_missed hu v)]
    simp only [Prod.mk.injEq, true_and, and_true]
    exact and_comm
  | getType hi hz hs hm hu hg =>
    rw [keeps_read hi, forall_fits hz, keeps_read hs,
      and_iff_left fun _ _ v _ _ hv => absurd hv (not_reads_of_missed hg v)]
    simp only [Prod.mk.injEq, true_and, and_true]
    exact and_comm

theorem configClosed_iff (hr : ConfigRead lib env doc h (.ok after)) :
    OtaHandle.watched { configReset env after with chFetch := none } = h.watched ↔
      ConfigHarmless lib env doc h := by
  unfold ConfigHarmless OtaHandle.watched configReset
  cases hr with
  | @all _ _ _ method url getType hi hz hs hm hu hg =>
    rw [keeps_read hi, forall_fits hz, keeps_read hs, eq_comm (a := h.sizeFetched),
      eq_comm (a := h.chFetch)]
    simp only [Prod.mk.injEq, true_and]
    constructor
    · rintro ⟨hsign, hsize, hfetched, hid, hch⟩
      exact ⟨hid, hsign, fun _ _ _ _ _ _ => ⟨hsize, hfetched, hch⟩⟩
    · rintro ⟨hid, hsign, hrest⟩
      obtain ⟨hsize, hfetched, hch⟩ := hrest method url getType hm hu hg
      exact ⟨hsign, hsize, hfetched, hid, hch⟩

theorem harmless_firmware {msg : List UInt8} {type : OtaTopic} (hs : h.state ≠ .fetching)
    (hk : type.kind = .fota) (hd : payloadOf lib msg type = some doc) :
    Harmless lib env h msg type ↔ FirmwareHarmless lib env doc h := by
  constructor
  · intro hh
    have hdoc := hh hs doc hd
    rwa [if_pos hk] at hdoc
  · intro hh _ other hother
    cases hd.symm.trans hother
    rwa [if_pos hk]

theorem harmless_config {msg : List UInt8} {type : OtaTopic} (hs : h.state ≠ .fetching)
    (hk : type.kind = .cota) (hd : payloadOf lib msg type = some doc) :
    Harmless lib env h msg type ↔ ConfigHarmless lib env doc h := by
  have hne : type.kind ≠ .fota := by rw [hk]; nofun
  constructor
  · intro hh
    have hdoc := hh hs doc hd
    rwa [if_neg hne] at hdoc
  · intro hh _ other hother
    cases hd.symm.trans hother
    rwa [if_neg hne]

theorem rejected_iff (lib : OtaLib) (env : CallbackEnv) (h : OtaHandle) (msg : List UInt8)
    (type : OtaTopic) (hrej : (otaCallback lib env h msg type).1 ≠ 0) :
    (otaCallback lib env h msg type).2.watched = h.watched ↔ Harmless lib env h msg type := by
  have hreceived := callback_received lib env h msg type
  generalize otaCallback lib env h msg type = r at hrej hreceived ⊢
  cases hreceived with
  | ignored hig =>
    refine iff_of_true rfl fun hs doc hd => ?_
    rcases hig with hfetching | hnone
    · exact absurd hfetching hs
    · exact absurd (hnone.symm.trans hd) nofun
  | firmwareUnread hs hk hd hr =>
    exact (firmwareUnread_iff hr).trans (harmless_firmware hs hk hd).symm
  | firmwareClosed hs hk hd hr _ =>
    exact (firmwareClosed_iff hr).trans (harmless_firmware hs hk hd).symm
  | firmware => exact absurd rfl hrej
  | configUnread hs hk hd hr =>
    exact (configUnread_iff hr).trans (harmless_config hs hk hd).symm
  | configClosed hs hk hd hr _ =>
    exact (configClosed_iff hr).trans (harmless_config hs hk hd).symm
  | config => exact absurd rfl hrej

end

def noUrlText : CStr :=
  .ofString "\x7b\"message\":\"success\",\"data\":\x7b\"version\":\"2\"\x7d\x7d" (by decide)

def noUrlData : CStr := .ofString "\x7b\"version\":\"2\"\x7d" (by decide)

/-- What `otalib_JsonValueOf` finds in that message. -/
def noUrlLib : OtaLib where
  jsonValueOf json key :=
    if json = noUrlText.val then
      if key = "message" then some textSuccess.val
      else if key = "data" then some noUrlData.val
      else none
    else if json = noUrlData.val ∧ key = "version" then some [0x32]
    else none
  atoi _ := 0
  md5 _ := []
  sha256 _ := []
  file _ := []

def roomy : CallbackEnv := ⟨fun _ => true, [], true, true, true⟩

def firmwareFetched : OtaHandle :=
  { otaInit with
    state := .fetched, sizeFetched := 1, sizeFile := 1, version := some (cstrOf [0x31])
    purl := some (cstrOf [0x75]) }

theorem rejected_iff_noUrl :
    (otaCallback noUrlLib roomy firmwareFetched noUrlText.val .deviceUpgrate).2.watched =
      firmwareFetched.watched ↔
    Harmless noUrlLib roomy firmwareFetched noUrlText.val .deviceUpgrate :=
  rejected_iff _ _ _ _ _ (by decide)

/-- The message is rejected, and the version is the rejected one. -/
theorem noUrl_not_unchanged :
    (otaCallback noUrlLib roomy firmwareFetched noUrlText.val .deviceUpgrate).1 = -1 ∧
    (otaCallback noUrlLib roomy firmwareFetched noUrlText.val .deviceUpgrate).2.watched ≠
      firmwareFetched.watched :=
  ⟨by decide, fun h => absurd (congrArg (fun w => w.2.1) h) (by decide)⟩

end AliyunIot.Ota
