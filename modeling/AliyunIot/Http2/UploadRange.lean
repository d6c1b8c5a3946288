import AliyunIot.Http2.Upload

/-!
# The range of a file that is uploaded

`_http2_fs_node_handle` and `_http2_fs_part_send_sync` from the response to the end, with the bytes
that are sent. `uploadLaw_iff` says for which offsets and lengths an upload that is reported as a
success has sent the range that was asked for.
-/

namespace AliyunIot.Http2.Upload

open State

/-- A file that is not empty, of a size that is an `int`. -/
abbrev UploadFile := {bytes : List UInt8 // 0 < bytes.length ∧ bytes.length < 2147483648}

namespace UploadFile

def size (file : UploadFile) : Nat := file.1.length

def filesize (file : UploadFile) : UInt32 := UInt32.ofNat file.size

/-- The bytes from one offset up to another. -/
def slice (file : UploadFile) (start stop : Nat) : List UInt8 :=
  (file.1.drop start).take (stop - start)

end UploadFile

abbrev SendBuffer := {bytes : List UInt8 // bytes.length = fsUploadPacketLen.toNat}

/-- What happens to one packet: `init_state`, whether the file can be opened and positioned, the
result of `IOT_HTTP2_Stream_Send`, and `if_stop`. -/
structure PacketIo where
  initState : Bool
  read : Bool
  sent : Int
  ifStop : Bool

/-- `http2_stream_get_file_data` with the size of the buffer, which it returns whatever was read.
The offset is an `int`, and `fseek` to a negative one fails. -/
def http2StreamGetFileData (file : UploadFile) (data : SendBuffer) (offset : UInt32) (read : Bool) :
    Option SendBuffer :=
  if read = false ∨ 2147483648 ≤ offset then none
  else
    let got := (file.1.drop offset.toNat).take fsUploadPacketLen.toNat
    some ⟨got ++ data.1.drop got.length, by
      have hle : got.length ≤ fsUploadPacketLen.toNat := List.length_take_le _ _
      rw [List.length_append, List.length_drop, data.2]
      omega⟩

/-- `packet_len`, adjusted to the part. -/
def Transfer.packetLen (x : Transfer) : UInt32 :=
  if x.streamLen - x.sendLen < fsUploadPacketLen then x.streamLen - x.sendLen
  else fsUploadPacketLen

/-- A call of `_http2_fs_part_send_sync`: its result, `none` where `res` was not assigned, and what
it has handed to `IOT_HTTP2_Stream_Send`; then the packets so far and the buffer. -/
structure PartSent where
  res : Option Int
  data : List UInt8
  packets : Nat
  buffer : SendBuffer

theorem toNat_packetLen {x : Transfer} (h : x.sendLen ≤ x.streamLen) :
    x.packetLen.toNat = min (x.streamLen.toNat - x.sendLen.toNat) fsUploadPacketLen.toNat := by
  have hsub := UInt32.toNat_sub_of_le _ _ h
  unfold Transfer.packetLen
  split
  · next hlt =>
    rw [UInt32.lt_iff_toNat_lt, hsub] at hlt
    omega
  · next hlt =>
    rw [UInt32.lt_iff_toNat_lt, hsub] at hlt
    omega

theorem toNat_sent {x : Transfer} (h : x.sendLen ≤ x.streamLen) :
    x.sent.sendLen.toNat = x.sendLen.toNat + x.packetLen.toNat ∧
      x.sent.sendLen ≤ x.streamLen := by
  have hpacket := toNat_packetLen h
  have hsum : x.sent.sendLen = x.sendLen + x.packetLen := rfl
  have hlt := x.streamLen.toNat_lt
  rw [UInt32.le_iff_toNat_le] at h ⊢
  rw [hsum, UInt32.toNat_add]
  omega

theorem packet_lt {x : Transfer} (h : x.sendLen < x.streamLen) :
    (x.sent.streamLen - x.sent.sendLen).toNat < (x.streamLen - x.sendLen).toNat := by
  have hle := UInt32.le_of_lt h
  have hpacket := toNat_packetLen hle
  obtain ⟨hsent, hin⟩ := toNat_sent hle
  have hpos : 0 < fsUploadPacketLen.toNat := by decide
  rw [UInt32.lt_iff_toNat_lt] at h
  rw [UInt32.toNat_sub_of_le _ _ hle, show x.sent.streamLen = x.streamLen from rfl,
    UInt32.toNat_sub_of_le _ _ hin]
  omega

/-- The loop of `_http2_fs_part_send_sync`. -/
def sendPackets (file : UploadFile) (io : Nat → PacketIo) (x : Transfer) (res : Option Int)
    (k : Nat) (buffer : SendBuffer) : PartSent :=
  if x.sendLen < x.streamLen then
    if (io k).initState = false then ⟨some uploadErrorCommon, [], k + 1, buffer⟩
    else
      match http2StreamGetFileData file buffer (x.sendLen + x.fileOffset) (io k).read with
      | none => ⟨some uploadFileReadFailed, [], k + 1, buffer⟩
      | some buffer =>
        let packet := buffer.1.take x.packetLen.toNat
        if (io k).sent < 0 then ⟨some uploadStreamSendFailed, packet, k + 1, buffer⟩
        else if (io k).ifStop then ⟨some uploadStopByIoctl, packet, k + 1, buffer⟩
        else
          let rest := sendPackets file io x.sent (some success) (k + 1) buffer
          { rest with data := packet ++ rest.data }
  else ⟨res, [], k, buffer⟩
termination_by (x.streamLen - x.sendLen).toNat
decreasing_by exact packet_lt ‹_›

structure SentPart where
  offset : Nat
  data : List UInt8

/-- How `_http2_fs_node_handle` ends: what `end_cb` is given, `none` where that is left to a `res`
that was not assigned, and the parts. -/
structure Uploaded where
  res : Option Int
  parts : List SentPart

/-- What is left of a range; an offset behind its end may still run over to its start. -/
def rangeLeft (uploadLen fileOffset : UInt32) : Nat :=
  if fileOffset < uploadLen then (uploadLen - fileOffset).toNat else 4294967296

variable {uploadLen fileOffset : UInt32}

theorem toNat_streamLen (h : fileOffset ≤ uploadLen)
    (partLen : UInt32) : (Transfer.part uploadLen partLen fileOffset).streamLen.toNat =
      min (uploadLen.toNat - fileOffset.toNat) partLen.toNat := by
  have hsub := UInt32.toNat_sub_of_le _ _ h
  show (if uploadLen - fileOffset < partLen then uploadLen - fileOffset else partLen).toNat = _
  split
  · next hlt =>
    rw [UInt32.lt_iff_toNat_lt, hsub] at hlt
    omega
  · next hlt =>
    rw [UInt32.lt_iff_toNat_lt, hsub] at hlt
    omega

theorem toNat_part_end (h : fileOffset ≤ uploadLen) (partLen : UInt32) :
    (fileOffset + (Transfer.part uploadLen partLen fileOffset).streamLen).toNat =
      fileOffset.toNat + (Transfer.part uploadLen partLen fileOffset).streamLen.toNat := by
  have hstream := toNat_streamLen h partLen
  have hlt := uploadLen.toNat_lt
  rw [UInt32.le_iff_toNat_le] at h
  rw [UInt32.toNat_add]
  omega

theorem rangeLeft_lt {partLen : UInt32} (hpart : 0 < partLen)
    (h : fileOffset + (Transfer.part uploadLen partLen fileOffset).streamLen < uploadLen) :
    rangeLeft uploadLen (fileOffset + (Transfer.part uploadLen partLen fileOffset).streamLen) <
      rangeLeft uploadLen fileOffset := by
  unfold rangeLeft
  rw [if_pos h]
  split
  · next hin =>
    have hle := UInt32.le_of_lt hin
    have hstream := toNat_streamLen hle partLen
    have hend := toNat_part_end hle partLen
    rw [UInt32.toNat_sub_of_le _ _ (UInt32.le_of_lt h), UInt32.toNat_sub_of_le _ _ hle]
    rw [UInt32.lt_iff_toNat_lt] at hpart h hin
    have hzero : (0 : UInt32).toNat = 0 := rfl
    omega
  · exact UInt32.toNat_lt _

/-- The loop of `_http2_fs_node_handle`. -/
def sendParts (file : UploadFile) (io : Nat → PacketIo) (uploadLen partLen : UInt32)
    (hpart : 0 < partLen) (fileOffset : UInt32) (k : Nat) (buffer : SendBuffer) : Uploaded :=
  let x := Transfer.part uploadLen partLen fileOffset
  let part := sendPackets file io x none k buffer
  let sent : SentPart := ⟨fileOffset.toNat, part.data⟩
  match part.res with
  | none => ⟨none, [sent]⟩
  | some res =>
    if res < success then ⟨some res, [sent]⟩
    else if fileOffset + x.streamLen < uploadLen then
      let rest := sendParts file io uploadLen partLen hpart (fileOffset + x.streamLen) part.packets
        part.buffer
      { rest with parts := sent :: rest.parts }
    else ⟨some uploadSuccess, [sent]⟩
termination_by rangeLeft uploadLen fileOffset
decreasing_by exact rangeLeft_lt hpart ‹_›

def FileStream.partLength (node : FileStream) : UInt32 :=
  if node.partLen < 1024 * 100 ∨ 1024 * 1024 * 100 < node.partLen then fsUploadPartLen
  else node.partLen

theorem partLength_bounds (node : FileStream) :
    102400 ≤ node.partLength.toNat ∧ node.partLength.toNat ≤ 104857600 := by
  unfold FileStream.partLength
  split
  · decide
  · next h =>
    rw [not_or, UInt32.not_lt, UInt32.not_lt, UInt32.le_iff_toNat_le, UInt32.le_iff_toNat_le] at h
    exact h

theorem partLength_pos (node : FileStream) : 0 < node.partLength := by
  have := (partLength_bounds node).1
  rw [UInt32.lt_iff_toNat_lt]
  exact Nat.lt_of_lt_of_le (by decide) this

/-- `_http2_fs_node_handle` once the channel is open; the buffer holds whatever it was allocated
with. -/
def http2FsNodeHandle (file : UploadFile) (node : FileStream) (fsOffset : UInt32) (malloc : Bool)
    (io : Nat → PacketIo) (buffer : SendBuffer) : Uploaded :=
  if malloc = false then ⟨some uploadMallocFailed, []⟩
  else
    let x := node.transfer file.filesize fsOffset
    sendParts file io x.uploadLen node.partLength (partLength_pos node) x.fileOffset 0 buffer

/-- Every part starts where the one before it ends. -/
def Contiguous : Nat → List SentPart → Prop
  | _, [] => True
  | start, part :: parts => part.offset = start ∧ Contiguous (start + part.data.length) parts

/-- The parts are the bytes from one offset up to another, none longer than `partLen`. -/
structure Covers (file : UploadFile) (partLen start stop : Nat) (parts : List SentPart) : Prop where
  contiguous : Contiguous start parts
  length_le : ∀ part ∈ parts, part.data.length ≤ partLen
  bytes : parts.flatMap SentPart.data = file.slice start stop

/-- Where the range of a node ends; a length of 0 means all. -/
def rangeEnd (file : UploadFile) (node : FileStream) (fsOffset : UInt32) : Nat :=
  if node.specLen = 0 then file.size else min (fsOffset.toNat + node.specLen.toNat) file.size

/-- A success has sent the range, and behind its end nothing is sent and the result is defined. -/
def UploadLaw (file : UploadFile) (node : FileStream) (fsOffset : UInt32) : Prop :=
  ∀ malloc io buffer,
    ((http2FsNodeHandle file node fsOffset malloc io buffer).res = some uploadSuccess →
      Covers file node.partLength.toNat fsOffset.toNat (rangeEnd file node fsOffset)
        (http2FsNodeHandle file node fsOffset malloc io buffer).parts) ∧
    (rangeEnd file node fsOffset ≤ fsOffset.toNat →
      (http2FsNodeHandle file node fsOffset malloc io buffer).res ≠ none ∧
        ∀ part ∈ (http2FsNodeHandle file node fsOffset malloc io buffer).parts, part.data = [])

/-! ## One packet -/

section
variable (file : UploadFile) (io : Nat → PacketIo) {x : Transfer} (res : Option Int) (k : Nat)
  (buffer : SendBuffer)

theorem sendPackets_step (h : x.sendLen < x.streamLen) :
    (∃ r < success, (sendPackets file io x res k buffer).res = some r) ∨
      ∃ data, http2StreamGetFileData file buffer (x.sendLen + x.fileOffset) (io k).read =
          some data ∧
        sendPackets file io x res k buffer =
          { sendPackets file io x.sent (some success) (k + 1) data with
            data := data.1.take x.packetLen.toNat ++
              (sendPackets file io x.sent (some success) (k + 1) data).data } := by
  rw [sendPackets, if_pos h]
  by_cases hinit : (io k).initState = false
  · rw [if_pos hinit]
    exact .inl ⟨uploadErrorCommon, by decide, rfl⟩
  rw [if_neg hinit]
  cases http2StreamGetFileData file buffer (x.sendLen + x.fileOffset) (io k).read with
  | none => exact .inl ⟨uploadFileReadFailed, by decide, rfl⟩
  | some data =>
    dsimp only
    by_cases hsent : (io k).sent < 0
    · rw [if_pos hsent]
      exact .inl ⟨uploadStreamSendFailed, by decide, rfl⟩
    rw [if_neg hsent]
    by_cases hstop : (io k).ifStop = true
    · rw [if_pos hstop]
      exact .inl ⟨uploadStopByIoctl, by decide, rfl⟩
    rw [if_neg hstop]
    exact .inr ⟨data, rfl, rfl⟩

theorem sendPackets_unreadable (h : x.sendLen < x.streamLen)
    (hoffset : 2147483648 ≤ x.sendLen + x.fileOffset) :
    (sendPackets file io x res k buffer).data = [] ∧
      ∃ r < success, (sendPackets file io x res k buffer).res = some r := by
  rw [sendPackets, if_pos h]
  split
  · exact ⟨rfl, uploadErrorCommon, by decide, rfl⟩
  · rw [http2StreamGetFileData, if_pos (.inr hoffset)]
    exact ⟨rfl, uploadFileReadFailed, by decide, rfl⟩

theorem take_of_getFileData {file : UploadFile} {buffer data : SendBuffer} {offset : UInt32}
    {read : Bool} (h : http2StreamGetFileData file buffer offset read = some data) {n : Nat}
    (hn : n ≤ fsUploadPacketLen.toNat) (hin : offset.toNat + n ≤ file.size) :
    data.1.take n = file.slice offset.toNat (offset.toNat + n) := by
  unfold http2StreamGetFileData at h
  split at h
  · cases h
  · cases h
    have hlen : n ≤ ((file.1.drop offset.toNat).take fsUploadPacketLen.toNat).length := by
      rw [List.length_take, List.length_drop]
      unfold UploadFile.size at hin
      omega
    rw [List.take_append_of_le_length hlen, List.take_take, Nat.min_eq_left hn,
      UploadFile.slice, Nat.add_sub_cancel_left]

theorem slice_append (file : UploadFile) {a b c : Nat} (hab : a ≤ b) (hbc : b ≤ c) :
    file.slice a b ++ file.slice b c = file.slice a c := by
  unfold UploadFile.slice
  have hdrop : file.1.drop b = (file.1.drop a).drop (b - a) := by
    rw [List.drop_drop]
    congr 1
    omega
  have hsum : c - a = (b - a) + (c - b) := by omega
  rw [hdrop, hsum, List.take_add]

/-! ## One part -/

structure PacketsSent (file : UploadFile) (x : Transfer) (res : Option Int) (p : PartSent) :
    Prop where
  res_eq : p.res = if x.sendLen < x.streamLen then some success else res
  length : p.data.length = x.streamLen.toNat - x.sendLen.toNat
  bytes : x.fileOffset.toNat + x.streamLen.toNat ≤ file.size →
    p.data = file.slice (x.fileOffset.toNat + x.sendLen.toNat)
      (x.fileOffset.toNat + x.streamLen.toNat)

theorem sendPackets_cases (h : x.sendLen ≤ x.streamLen) :
    (∃ r < success, (sendPackets file io x res k buffer).res = some r) ∨
      PacketsSent file x res (sendPackets file io x res k buffer) := by
  induction hn : (x.streamLen - x.sendLen).toNat using Nat.strongRecOn
    generalizing x res k buffer with
  | ind n ih =>
    subst hn
    by_cases hlt : x.sendLen < x.streamLen
    · rcases sendPackets_step file io res k buffer hlt
        with herror | ⟨data, hdata, hrest⟩
      · exact .inl herror
      have hpacket := toNat_packetLen h
      obtain ⟨hsent, hin⟩ := toNat_sent h
      have htail := ih _ (packet_lt hlt) (some success) (k + 1) data hin rfl
      rw [hrest]
      rcases htail with herror | hsentRest
      · exact .inl herror
      · refine .inr ⟨?_, ?_, fun hfile => ?_⟩
        · rw [if_pos hlt]
          rw [hsentRest.res_eq, ite_self]
        · have hlen : (sendPackets file io x.sent (some success) (k + 1) data).data.length =
              x.streamLen.toNat - x.sent.sendLen.toNat := hsentRest.length
          rw [List.length_append, List.length_take, data.2, hlen]
          rw [UInt32.le_iff_toNat_le] at hin
          omega
        · have hrestBytes : (sendPackets file io x.sent (some success) (k + 1) data).data = _ :=
            hsentRest.bytes hfile
          have hpos : (x.sendLen + x.fileOffset).toNat =
              x.fileOffset.toNat + x.sendLen.toNat := by
            have := file.2.2
            unfold UploadFile.size at hfile
            rw [UInt32.lt_iff_toNat_lt] at hlt
            rw [UInt32.toNat_add]
            omega
          rw [UInt32.le_iff_toNat_le] at hin
          have hfirst := take_of_getFileData hdata (n := x.packetLen.toNat) (by omega)
            (by rw [hpos]; omega)
          rw [hfirst, hrestBytes, hpos, Nat.add_assoc, ← hsent]
          exact slice_append file (Nat.add_le_add_left (by omega) _) (Nat.add_le_add_left hin _)
    · have hdone : x.streamLen.toNat - x.sendLen.toNat = 0 := by
        rw [UInt32.lt_iff_toNat_lt] at hlt
        omega
      rw [sendPackets, if_neg hlt]
      refine .inr ⟨by rw [if_neg hlt], by rw [hdone]; rfl, fun _ => ?_⟩
      unfold UploadFile.slice
      rw [Nat.add_sub_add_left, hdone, List.take_zero]

/-- Every call succeeds. -/
def generous : Nat → PacketIo := fun _ => ⟨true, true, 0, false⟩

def lastPacket (streamLen : Nat) : Nat :=
  (streamLen - 1) / fsUploadPacketLen.toNat * fsUploadPacketLen.toNat

theorem getFileData_of_lt {offset : UInt32} (h : offset.toNat < 2147483648) :
    ∃ data, http2StreamGetFileData file buffer offset true = some data := by
  unfold http2StreamGetFileData
  rw [if_neg]
  · exact ⟨_, rfl⟩
  · rintro (hread | hoffset)
    · cases hread
    · rw [UInt32.le_iff_toNat_le] at hoffset
      exact absurd h (Nat.not_lt_of_le hoffset)

theorem sendPackets_generous_step (h : x.sendLen < x.streamLen)
    (hoffset : (x.sendLen + x.fileOffset).toNat < 2147483648) :
    ∃ data : SendBuffer, sendPackets file generous x res k buffer =
      { sendPackets file generous x.sent (some success) (k + 1) data with
        data := data.1.take x.packetLen.toNat ++
          (sendPackets file generous x.sent (some success) (k + 1) data).data } := by
  obtain ⟨data, hdata⟩ := getFileData_of_lt file buffer hoffset
  have hread : http2StreamGetFileData file buffer (x.sendLen + x.fileOffset)
      (generous k).read = some data := hdata
  have hinit : ¬ (generous k).initState = false := fun h => by cases h
  have hsent : ¬ (generous k).sent < 0 := by
    show ¬ (0 : Int) < 0
    decide
  have hstop : ¬ (generous k).ifStop = true := fun h => by cases h
  refine ⟨data, ?_⟩
  rw [sendPackets, if_pos h, if_neg hinit, hread]
  dsimp only
  rw [if_neg hsent, if_neg hstop]

theorem sendPackets_generous (h : x.sendLen ≤ x.streamLen)
    (hmod : x.sendLen < x.streamLen → x.sendLen.toNat % fsUploadPacketLen.toNat = 0)
    (hlast : x.fileOffset.toNat + lastPacket x.streamLen.toNat < 2147483648)
    (hres : ∀ r ∈ res, ¬ r < success) :
    ∀ r ∈ (sendPackets file generous x res k buffer).res, ¬ r < success := by
  induction hn : (x.streamLen - x.sendLen).toNat using Nat.strongRecOn
    generalizing x res k buffer with
  | ind n ih =>
    subst hn
    by_cases hlt : x.sendLen < x.streamLen
    · have hlen : fsUploadPacketLen.toNat = 10240 := rfl
      have hpacket := toNat_packetLen h
      obtain ⟨hsent, hin⟩ := toNat_sent h
      have hmod := hmod hlt
      have hstep := packet_lt hlt
      rw [lastPacket, hlen] at hlast
      rw [hlen] at hmod hpacket
      rw [UInt32.lt_iff_toNat_lt] at hlt
      have hoffset : (x.sendLen + x.fileOffset).toNat < 2147483648 := by
        rw [UInt32.toNat_add]
        omega
      obtain ⟨data, hrest⟩ := sendPackets_generous_step file res k buffer
        (UInt32.lt_iff_toNat_lt.mpr hlt) hoffset
      rw [hrest]
      apply ih _ hstep _ _ _ hin
      · intro hmore
        rw [UInt32.lt_iff_toNat_lt] at hmore
        have hmore : x.sent.sendLen.toNat < x.streamLen.toNat := hmore
        rw [hlen]
        omega
      · rw [lastPacket, hlen]
        exact hlast
      · rintro r ⟨⟩
        decide
      · rfl
    · rw [sendPackets, if_neg hlt]
      exact hres

theorem sendPackets_refused (hlt : x.sendLen < x.streamLen)
    (hmod : x.sendLen.toNat % fsUploadPacketLen.toNat = 0)
    (hend : x.fileOffset.toNat + x.streamLen.toNat < 4294967296)
    (hlast : 2147483648 ≤ x.fileOffset.toNat + lastPacket x.streamLen.toNat) :
    ∃ r < success, (sendPackets file io x res k buffer).res = some r := by
  induction hn : (x.streamLen - x.sendLen).toNat using Nat.strongRecOn
    generalizing x res k buffer with
  | ind n ih =>
    subst hn
    have h := UInt32.le_of_lt hlt
    rcases sendPackets_step file io res k buffer hlt
      with herror | ⟨data, hdata, hrest⟩
    · exact herror
    have hpacket := toNat_packetLen h
    obtain ⟨hsent, hin⟩ := toNat_sent h
    have hlen : fsUploadPacketLen.toNat = 10240 := rfl
    -- The packet was read, so it is not the last one.
    have hread : (x.sendLen + x.fileOffset).toNat < 2147483648 := by
      by_contra hnot
      rw [http2StreamGetFileData, if_pos] at hdata
      · cases hdata
      · rw [UInt32.le_iff_toNat_le]
        exact .inr (Nat.not_lt.mp hnot)
    rw [UInt32.lt_iff_toNat_lt] at hlt
    rw [UInt32.toNat_add] at hread
    rw [lastPacket, hlen] at hlast
    rw [hlen] at hmod hpacket
    have hmore : x.sent.sendLen.toNat = x.sendLen.toNat + 10240 ∧
        x.sendLen.toNat + 10240 < x.streamLen.toNat := by
      omega
    rw [hrest]
    apply ih _ (packet_lt (UInt32.lt_iff_toNat_lt.mpr hlt))
    · rw [UInt32.lt_iff_toNat_lt]
      show _ < x.streamLen.toNat
      omega
    · rw [hlen]
      omega
    · exact hend
    · rw [lastPacket, hlen]
      exact hlast
    · rfl

end

/-! ## All parts -/

section
variable {file : UploadFile} {io : Nat → PacketIo} {uploadLen partLen fileOffset : UInt32}
  {hpart : 0 < partLen} {k : Nat} {buffer : SendBuffer}

abbrev firstPart (file : UploadFile) (io : Nat → PacketIo) (uploadLen partLen fileOffset : UInt32)
    (k : Nat) (buffer : SendBuffer) : PartSent :=
  sendPackets file io (Transfer.part uploadLen partLen fileOffset) none k buffer

theorem sendParts_head (io : Nat → PacketIo) (hpart : 0 < partLen) (buffer : SendBuffer) :
    ∃ parts, (sendParts file io uploadLen partLen hpart fileOffset k buffer).parts =
      ⟨fileOffset.toNat, (firstPart file io uploadLen partLen fileOffset k buffer).data⟩ ::
        parts := by
  rw [sendParts]
  split
  · exact ⟨_, rfl⟩
  · split
    · exact ⟨_, rfl⟩
    · split
      · exact ⟨_, rfl⟩
      · exact ⟨_, rfl⟩

theorem sendParts_unassigned
    (h : (firstPart file io uploadLen partLen fileOffset k buffer).res = none) :
    (sendParts file io uploadLen partLen hpart fileOffset k buffer).res = none := by
  rw [sendParts]
  rw [h]

theorem sendParts_error {r : Int} (hr : r < success)
    (h : (firstPart file io uploadLen partLen fileOffset k buffer).res = some r) :
    sendParts file io uploadLen partLen hpart fileOffset k buffer =
      ⟨some r,
        [⟨fileOffset.toNat, (firstPart file io uploadLen partLen fileOffset k buffer).data⟩]⟩ := by
  rw [sendParts]
  rw [h]
  dsimp only
  rw [if_pos hr]

theorem sendParts_last {r : Int} (hr : ¬ r < success)
    (h : (firstPart file io uploadLen partLen fileOffset k buffer).res = some r)
    (hend : ¬ fileOffset + (Transfer.part uploadLen partLen fileOffset).streamLen < uploadLen) :
    sendParts file io uploadLen partLen hpart fileOffset k buffer =
      ⟨some uploadSuccess,
        [⟨fileOffset.toNat, (firstPart file io uploadLen partLen fileOffset k buffer).data⟩]⟩ := by
  rw [sendParts]
  rw [h]
  dsimp only
  rw [if_neg hr, if_neg hend]

theorem sendParts_more {r : Int} (hr : ¬ r < success)
    (h : (firstPart file io uploadLen partLen fileOffset k buffer).res = some r)
    (hend : fileOffset + (Transfer.part uploadLen partLen fileOffset).streamLen < uploadLen) :
    sendParts file io uploadLen partLen hpart fileOffset k buffer =
      { sendParts file io uploadLen partLen hpart
          (fileOffset + (Transfer.part uploadLen partLen fileOffset).streamLen)
          (firstPart file io uploadLen partLen fileOffset k buffer).packets
          (firstPart file io uploadLen partLen fileOffset k buffer).buffer with
        parts :=
          ⟨fileOffset.toNat, (firstPart file io uploadLen partLen fileOffset k buffer).data⟩ ::
            (sendParts file io uploadLen partLen hpart
              (fileOffset + (Transfer.part uploadLen partLen fileOffset).streamLen)
              (firstPart file io uploadLen partLen fileOffset k buffer).packets
              (firstPart file io uploadLen partLen fileOffset k buffer).buffer).parts } := by
  rw [sendParts]
  rw [h]
  dsimp only
  rw [if_neg hr, if_pos hend]

theorem covers_single {start stop : Nat} {data : List UInt8} (hdata : data = file.slice start stop)
    (hlen : data.length ≤ partLen.toNat) :
    Covers file partLen.toNat start stop [⟨start, data⟩] where
  contiguous := ⟨rfl, trivial⟩
  length_le := by
    intro part hpart
    rw [List.mem_singleton.mp hpart]
    exact hlen
  bytes := by
    rw [List.flatMap_singleton]
    exact hdata

theorem sendParts_covers (hin : fileOffset < uploadLen) (hfile : uploadLen.toNat ≤ file.size)
    (h : (sendParts file io uploadLen partLen hpart fileOffset k buffer).res = some uploadSuccess) :
    Covers file partLen.toNat fileOffset.toNat uploadLen.toNat
      (sendParts file io uploadLen partLen hpart fileOffset k buffer).parts := by
  induction hn : rangeLeft uploadLen fileOffset using Nat.strongRecOn
    generalizing fileOffset k buffer with
  | ind n ih =>
    subst hn
    have hle := UInt32.le_of_lt hin
    have hstream := toNat_streamLen hle partLen
    have hpartEnd := toNat_part_end hle partLen
    have hpos := hpart
    rw [UInt32.lt_iff_toNat_lt] at hpos hin
    have hzero : (0 : UInt32).toNat = 0 := rfl
    have hstart : (Transfer.part uploadLen partLen fileOffset).sendLen ≤
        (Transfer.part uploadLen partLen fileOffset).streamLen := UInt32.zero_le
    rcases sendPackets_cases file io none k buffer hstart with ⟨r, hr, hres⟩ | hsent
    · rw [sendParts_error hr hres] at h
      cases h
      exact absurd hr (by decide)
    have hres : (firstPart file io uploadLen partLen fileOffset k buffer).res = some success := by
      rw [hsent.res_eq, if_pos]
      rw [UInt32.lt_iff_toNat_lt]
      show 0 < _
      omega
    have hlength : (firstPart file io uploadLen partLen fileOffset k buffer).data.length =
        (Transfer.part uploadLen partLen fileOffset).streamLen.toNat := hsent.length
    have hbytes : (firstPart file io uploadLen partLen fileOffset k buffer).data = file.slice
        fileOffset.toNat (fileOffset.toNat +
          (Transfer.part uploadLen partLen fileOffset).streamLen.toNat) :=
      hsent.bytes (by show fileOffset.toNat + _ ≤ _; omega)
    by_cases hend : fileOffset + (Transfer.part uploadLen partLen fileOffset).streamLen < uploadLen
    · rw [sendParts_more (by decide) hres hend] at h ⊢
      have hrest := ih _ (rangeLeft_lt hpart hend) hend h rfl
      rw [hpartEnd] at hrest
      refine ⟨⟨rfl, ?_⟩, ?_, ?_⟩
      · rw [hlength]
        exact hrest.contiguous
      · intro part hmem
        rcases List.mem_cons.mp hmem with rfl | hmem
        · exact Nat.le_trans (Nat.le_of_eq hlength) (by omega)
        · exact hrest.length_le part hmem
      · rw [List.flatMap_cons, hrest.bytes]
        rw [hbytes]
        rw [UInt32.lt_iff_toNat_lt] at hend
        exact slice_append file (by omega) (by omega)
    · rw [sendParts_last (by decide) hres hend]
      rw [UInt32.lt_iff_toNat_lt] at hend
      have hstop : fileOffset.toNat + (Transfer.part uploadLen partLen fileOffset).streamLen.toNat =
          uploadLen.toNat := by omega
      rw [hstop] at hbytes
      exact covers_single hbytes (by omega)

end

/-! ## The range -/

/-- The offsets and lengths an upload copes with: the offset lies inside the file and its sum with
the length is no more than 32 bits wide, or the one part that is then sent ends with the file or
cannot be read; or the offset is no `int` at all. -/
def RangeHandled (file : UploadFile) (node : FileStream) (fsOffset : UInt32) : Prop :=
  2147483648 ≤ fsOffset.toNat ∨
    fsOffset.toNat < file.size ∧
      (node.specLen.toNat + fsOffset.toNat < 4294967296 ∨
        file.size = fsOffset.toNat + node.partLength.toNat ∨
        2147483648 ≤ fsOffset.toNat + lastPacket node.partLength.toNat)

section
variable {file : UploadFile} {node : FileStream} {fsOffset : UInt32}

theorem toNat_filesize (file : UploadFile) : file.filesize.toNat = file.size :=
  UInt32.toNat_ofNat_of_lt' (Nat.lt_trans file.2.2 (by decide))

/-- `upload_len`. -/
abbrev uploadLength (file : UploadFile) (node : FileStream) (fsOffset : UInt32) : UInt32 :=
  (node.transfer file.filesize fsOffset).uploadLen

theorem uploadLength_le (file : UploadFile) (node : FileStream) (fsOffset : UInt32) :
    (uploadLength file node fsOffset).toNat ≤ file.size := by
  rw [← toNat_filesize]
  show (if _ then _ else _ : UInt32).toNat ≤ _
  split
  · next h => exact Nat.le_of_lt (UInt32.lt_iff_toNat_lt.mp h.2)
  · exact Nat.le_refl _

theorem uploadLength_eq (file : UploadFile) (h : node.specLen.toNat + fsOffset.toNat < 4294967296) :
    (uploadLength file node fsOffset).toNat = rangeEnd file node fsOffset := by
  have hsum : (node.specLen + fsOffset).toNat = node.specLen.toNat + fsOffset.toNat := by
    rw [UInt32.toNat_add]
    omega
  have hsize := toNat_filesize file
  unfold rangeEnd
  show (if node.specLen ≠ 0 ∧ node.specLen + fsOffset < file.filesize then node.specLen + fsOffset
    else file.filesize).toNat = _
  by_cases hspec : node.specLen = 0
  · rw [if_neg (fun h => h.1 hspec), if_pos hspec, hsize]
  · rw [if_neg hspec]
    split
    · next hlt =>
      rw [UInt32.lt_iff_toNat_lt] at hlt
      omega
    · next hlt =>
      have hge := not_and.mp hlt hspec
      rw [UInt32.lt_iff_toNat_lt] at hge
      omega

theorem uploadLength_wrapped (h : 4294967296 ≤ node.specLen.toNat + fsOffset.toNat)
    (hin : fsOffset.toNat ≤ file.size) :
    (uploadLength file node fsOffset).toNat < fsOffset.toNat ∧
      rangeEnd file node fsOffset = file.size := by
  have hspec := node.specLen.toNat_lt
  have hfile := file.2.2
  have hsize := toNat_filesize file
  unfold UploadFile.size at hin hsize
  have hsum : (node.specLen + fsOffset).toNat =
      node.specLen.toNat + fsOffset.toNat - 4294967296 := by
    rw [UInt32.toNat_add]
    omega
  have hne : node.specLen ≠ 0 := by
    rintro hzero
    rw [hzero, show (0 : UInt32).toNat = 0 from rfl] at h
    omega
  have hlt : node.specLen + fsOffset < file.filesize := by
    rw [UInt32.lt_iff_toNat_lt]
    omega
  constructor
  · show (if node.specLen ≠ 0 ∧ node.specLen + fsOffset < file.filesize then
      node.specLen + fsOffset else file.filesize).toNat < _
    rw [if_pos ⟨hne, hlt⟩]
    omega
  · unfold rangeEnd UploadFile.size
    rw [if_neg hne]
    omega

theorem streamLen_behind (hoffset : fsOffset.toNat < 2147483648)
    (h : (uploadLength file node fsOffset).toNat < fsOffset.toNat) :
    (Transfer.part (uploadLength file node fsOffset) node.partLength fsOffset).streamLen =
        node.partLength ∧
      ¬ fsOffset + node.partLength < uploadLength file node fsOffset := by
  have hbounds := partLength_bounds node
  have hsub : (uploadLength file node fsOffset - fsOffset).toNat =
      4294967296 - fsOffset.toNat + (uploadLength file node fsOffset).toNat := by
    rw [UInt32.toNat_sub]
    omega
  constructor
  · show (if _ < _ then _ else _ : UInt32) = _
    rw [if_neg]
    rw [UInt32.lt_iff_toNat_lt, hsub]
    omega
  · rw [UInt32.lt_iff_toNat_lt, UInt32.toNat_add]
    omega

theorem nodeHandle_eq (io : Nat → PacketIo) (buffer : SendBuffer) :
    http2FsNodeHandle file node fsOffset true io buffer =
      sendParts file io (uploadLength file node fsOffset) node.partLength (partLength_pos node)
        fsOffset 0 buffer := rfl

theorem uploadLaw_of_buffer (h : ∀ io buffer,
      ((http2FsNodeHandle file node fsOffset true io buffer).res = some uploadSuccess →
        Covers file node.partLength.toNat fsOffset.toNat (rangeEnd file node fsOffset)
          (http2FsNodeHandle file node fsOffset true io buffer).parts) ∧
      (rangeEnd file node fsOffset ≤ fsOffset.toNat →
        (http2FsNodeHandle file node fsOffset true io buffer).res ≠ none ∧
          ∀ part ∈ (http2FsNodeHandle file node fsOffset true io buffer).parts, part.data = [])) :
    UploadLaw file node fsOffset := by
  intro malloc io buffer
  cases malloc with
  | false => exact ⟨nofun, fun _ => ⟨nofun, nofun⟩⟩
  | true => exact h io buffer

theorem law_of_large (h : 2147483648 ≤ fsOffset.toNat) : UploadLaw file node fsOffset := by
  apply uploadLaw_of_buffer
  intro io buffer
  have hle := uploadLength_le file node fsOffset
  have hfile : file.size < 2147483648 := file.2.2
  have hbounds := partLength_bounds node
  have hstream :
      (Transfer.part (uploadLength file node fsOffset) node.partLength fsOffset).sendLen <
        (Transfer.part (uploadLength file node fsOffset) node.partLength fsOffset).streamLen := by
    have hlt := fsOffset.toNat_lt
    have hsub : (uploadLength file node fsOffset - fsOffset).toNat =
        4294967296 - fsOffset.toNat + (uploadLength file node fsOffset).toNat := by
      rw [UInt32.toNat_sub]
      omega
    rw [UInt32.lt_iff_toNat_lt]
    show 0 < (if _ < _ then _ else _ : UInt32).toNat
    split <;> omega
  have hoffset : 2147483648 ≤
      (Transfer.part (uploadLength file node fsOffset) node.partLength fsOffset).sendLen +
        (Transfer.part (uploadLength file node fsOffset) node.partLength fsOffset).fileOffset := by
    show 2147483648 ≤ 0 + fsOffset
    rw [UInt32.zero_add, UInt32.le_iff_toNat_le]
    exact h
  obtain ⟨hdata, r, hr, hres⟩ := sendPackets_unreadable file io none 0 buffer hstream hoffset
  rw [nodeHandle_eq, sendParts_error hr hres]
  refine ⟨fun hsuccess => ?_, fun _ => ⟨nofun, fun part hmem => ?_⟩⟩
  · cases hsuccess
    exact absurd hr (by decide)
  · rw [List.mem_singleton.mp hmem]
    exact hdata

theorem law_of_inside (hin : fsOffset.toNat < file.size)
    (h : node.specLen.toNat + fsOffset.toNat < 4294967296) : UploadLaw file node fsOffset := by
  apply uploadLaw_of_buffer
  intro io buffer
  have heq := uploadLength_eq file h
  have hbehind : fsOffset.toNat < rangeEnd file node fsOffset := by
    unfold rangeEnd
    split
    · exact hin
    · next hspec =>
      have hpos : 0 < node.specLen.toNat := by
        rw [Nat.pos_iff_ne_zero]
        intro hzero
        exact hspec (UInt32.toNat_inj.mp hzero)
      omega
  refine ⟨fun hsuccess => ?_, fun hle => absurd hbehind (Nat.not_lt_of_le hle)⟩
  rw [nodeHandle_eq] at hsuccess ⊢
  rw [← heq] at hbehind ⊢
  exact sendParts_covers (UInt32.lt_iff_toNat_lt.mpr hbehind) (uploadLength_le file node fsOffset)
    hsuccess

theorem law_of_wrapped (hin : fsOffset.toNat < file.size)
    (h : 4294967296 ≤ node.specLen.toNat + fsOffset.toNat)
    (hpart : file.size = fsOffset.toNat + node.partLength.toNat ∨
      2147483648 ≤ fsOffset.toNat + lastPacket node.partLength.toNat) :
    UploadLaw file node fsOffset := by
  apply uploadLaw_of_buffer
  intro io buffer
  obtain ⟨hwrap, hend⟩ := uploadLength_wrapped h (Nat.le_of_lt hin)
  have hfile : file.size < 2147483648 := file.2.2
  obtain ⟨hstream, hnext⟩ := streamLen_behind (Nat.lt_trans hin hfile) hwrap
  have hpos := partLength_pos node
  rw [nodeHandle_eq, hend]
  refine ⟨fun hsuccess => ?_, fun hle => absurd hin (Nat.not_lt_of_le hle)⟩
  have herror : ¬ ∃ r < success, (firstPart file io (uploadLength file node fsOffset)
      node.partLength fsOffset 0 buffer).res = some r := by
    rintro ⟨r, hr, hres⟩
    rw [sendParts_error hr hres] at hsuccess
    cases hsuccess
    exact absurd hr (by decide)
  rcases hpart with hexact | hlast
  · have hlt : (Transfer.part (uploadLength file node fsOffset) node.partLength fsOffset).sendLen <
        (Transfer.part (uploadLength file node fsOffset) node.partLength fsOffset).streamLen := by
      rw [hstream]
      exact hpos
    have hsent :=
      (sendPackets_cases file io none 0 buffer (UInt32.le_of_lt hlt)).resolve_left herror
    have hres : (firstPart file io (uploadLength file node fsOffset) node.partLength fsOffset 0
        buffer).res = some success := by
      rw [hsent.res_eq, if_pos hlt]
    have hlength := hsent.length
    have hbytes := hsent.bytes (by rw [hstream]; exact Nat.le_of_eq hexact.symm)
    rw [hstream] at hlength hbytes
    rw [show (Transfer.part (uploadLength file node fsOffset) node.partLength fsOffset).fileOffset =
      fsOffset from rfl, ← hexact] at hbytes
    rw [sendParts_last (by decide) hres (by rw [hstream]; exact hnext)]
    exact covers_single hbytes (Nat.le_of_eq hlength)
  · refine absurd (sendPackets_refused file io none 0 buffer ?_ rfl ?_ ?_) herror
    · rw [hstream]
      exact hpos
    · have hbounds := partLength_bounds node
      rw [hstream]
      show fsOffset.toNat + _ < _
      omega
    · rw [hstream]
      exact hlast

theorem not_law_of_behind (hoffset : fsOffset.toNat < 2147483648)
    (h : file.size ≤ fsOffset.toNat) : ¬ UploadLaw file node fsOffset := by
  intro hlaw
  have hend : rangeEnd file node fsOffset ≤ fsOffset.toNat := by
    unfold rangeEnd
    split <;> omega
  let buffer : SendBuffer := ⟨List.replicate fsUploadPacketLen.toNat 0, List.length_replicate⟩
  obtain ⟨hdefined, hempty⟩ := (hlaw true generous buffer).2 hend
  rw [nodeHandle_eq] at hdefined hempty
  obtain ⟨parts, hparts⟩ := sendParts_head generous (partLength_pos node) buffer
  have hnil : (firstPart file generous (uploadLength file node fsOffset) node.partLength fsOffset 0
      buffer).data = [] := hempty _ (hparts ▸ List.mem_cons_self)
  by_cases hstream :
      (Transfer.part (uploadLength file node fsOffset) node.partLength fsOffset).sendLen <
        (Transfer.part (uploadLength file node fsOffset) node.partLength fsOffset).streamLen
  · have hread : ((0 : UInt32) + fsOffset).toNat < 2147483648 := by
      rw [UInt32.zero_add]
      exact hoffset
    obtain ⟨data, hdata⟩ := sendPackets_generous_step file none 0 buffer hstream hread
    have hpacket := toNat_packetLen (UInt32.le_of_lt hstream)
    have hlen := congrArg List.length hnil
    rw [firstPart, hdata, List.length_append, List.length_take, data.2, List.length_nil] at hlen
    rw [UInt32.lt_iff_toNat_lt] at hstream
    have hpos : 0 < fsUploadPacketLen.toNat := by decide
    omega
  · apply hdefined
    apply sendParts_unassigned
    rw [firstPart, sendPackets, if_neg hstream]

theorem not_law_of_wrapped (hin : fsOffset.toNat < file.size)
    (h : 4294967296 ≤ node.specLen.toNat + fsOffset.toNat)
    (hexact : file.size ≠ fsOffset.toNat + node.partLength.toNat)
    (hlast : fsOffset.toNat + lastPacket node.partLength.toNat < 2147483648) :
    ¬ UploadLaw file node fsOffset := by
  intro hlaw
  let buffer : SendBuffer := ⟨List.replicate fsUploadPacketLen.toNat 0, List.length_replicate⟩
  have hsuccess := (hlaw true generous buffer).1
  obtain ⟨hwrap, hend⟩ := uploadLength_wrapped h (Nat.le_of_lt hin)
  have hfile : file.size < 2147483648 := file.2.2
  obtain ⟨hstream, hnext⟩ := streamLen_behind (Nat.lt_trans hin hfile) hwrap
  have hlt : (Transfer.part (uploadLength file node fsOffset) node.partLength fsOffset).sendLen <
      (Transfer.part (uploadLength file node fsOffset) node.partLength fsOffset).streamLen := by
    rw [hstream]
    exact partLength_pos node
  have herror : ¬ ∃ r < success, (firstPart file generous (uploadLength file node fsOffset)
      node.partLength fsOffset 0 buffer).res = some r := by
    rintro ⟨r, hr, hres⟩
    refine sendPackets_generous file none 0 buffer (UInt32.le_of_lt hlt) (fun _ => rfl) ?_
      (fun r hr => by cases hr) r hres hr
    rw [hstream]
    exact hlast
  have hsent :=
    (sendPackets_cases file generous none 0 buffer (UInt32.le_of_lt hlt)).resolve_left herror
  have hres : (firstPart file generous (uploadLength file node fsOffset) node.partLength fsOffset 0
      buffer).res = some success := by
    rw [hsent.res_eq, if_pos hlt]
  have hlength := hsent.length
  rw [hstream] at hlength
  rw [nodeHandle_eq, sendParts_last (by decide) hres (by rw [hstream]; exact hnext), hend]
    at hsuccess
  have hbytes := congrArg List.length (hsuccess rfl).bytes
  rw [List.flatMap_singleton] at hbytes
  have hbytes := hlength.symm.trans hbytes
  unfold UploadFile.slice at hbytes
  rw [List.length_take, List.length_drop] at hbytes
  have hzero : (Transfer.part (uploadLength file node fsOffset) node.partLength
    fsOffset).sendLen.toNat = 0 := rfl
  unfold UploadFile.size at hexact hin hbytes
  omega

/-- **The range.** The law holds for an upload exactly if its range is handled. -/
theorem uploadLaw_iff (file : UploadFile) (node : FileStream) (fsOffset : UInt32) :
    UploadLaw file node fsOffset ↔ RangeHandled file node fsOffset := by
  by_cases hlarge : 2147483648 ≤ fsOffset.toNat
  · exact iff_of_true (law_of_large hlarge) (.inl hlarge)
  by_cases hin : fsOffset.toNat < file.size
  · by_cases hwrap : node.specLen.toNat + fsOffset.toNat < 4294967296
    · exact iff_of_true (law_of_inside hin hwrap) (.inr ⟨hin, .inl hwrap⟩)
    · constructor
      · intro h
        refine .inr ⟨hin, ?_⟩
        by_contra hnot
        rw [not_or, not_or] at hnot
        exact not_law_of_wrapped hin (Nat.not_lt.mp hwrap) hnot.2.1 (Nat.not_le.mp hnot.2.2) h
      · rintro (h | ⟨-, h | h⟩)
        · exact absurd h hlarge
        · exact absurd h hwrap
        · exact law_of_wrapped hin (Nat.not_lt.mp hwrap) h
  · refine iff_of_false (not_law_of_behind (Nat.not_le.mp hlarge) (Nat.not_lt.mp hin)) ?_
    rintro (h | ⟨h, -⟩)
    · exact hlarge h
    · exact hin h

end

/-- Ten bytes, the whole of them, and a length that is near to 32 bits. -/
def tenBytes : UploadFile := ⟨List.replicate 10 0x41, by decide⟩

def wholeFile : FileStream := ⟨0, 0, 0, 0, true, false⟩

def longRange : FileStream := ⟨0, 0, 4294967295, 0, true, false⟩

/-- An offset at the end of the file, one behind it, and a length that wraps with the offset. -/
theorem range_not_handled :
    ¬ UploadLaw tenBytes wholeFile 10 ∧ ¬ UploadLaw tenBytes wholeFile 11 ∧
      ¬ UploadLaw tenBytes longRange 6 :=
  ⟨not_law_of_behind (by decide) (by decide), not_law_of_behind (by decide) (by decide),
    not_law_of_wrapped (by decide) (by decide) (by decide) (by decide)⟩

end AliyunIot.Http2.Upload
